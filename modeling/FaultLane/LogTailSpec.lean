import FaultLane.LogTailCharacters
import Mathlib.Data.List.GetD

set_option autoImplicit false

/-!
# What the tail of a log is

The limits and the flags of a tail for every input, and where the tail of a valid log begins.
-/
namespace FaultLane.LogTail
open RustText

/-! ## Character boundaries -/

section
variable {cs : List Char} {start k stop : Nat}

def Boundary (cs : List Char) (k : Nat) : Prop :=
  ∃ pre post, cs = pre ++ post ∧ (encode pre).length = k

theorem exists_char_at (hk : k < (encode cs).length) :
    ∃ pre c post, cs = pre ++ c :: post ∧ (encode pre).length ≤ k ∧
      k < (encode pre).length + c.utf8Size := by
  induction cs generalizing k with
  | nil => exact absurd hk (Nat.not_lt_zero k)
  | cons c cs ih =>
    rw [encode_cons, List.length_append, String.length_utf8EncodeChar] at hk
    by_cases h : k < c.utf8Size
    · exact ⟨[], c, cs, rfl, Nat.zero_le k, by rw [encode_nil, List.length_nil]; omega⟩
    · obtain ⟨pre, d, post, rfl, hle, hlt⟩ := ih (k := k - c.utf8Size) (by omega)
      refine ⟨c :: pre, d, post, rfl, ?_, ?_⟩ <;>
      · rw [encode_cons, List.length_append, String.length_utf8EncodeChar]
        omega

/-- The byte at an offset inside one character. -/
theorem getD_encode {pre : List Char} (post : List Char) {c : Char} {lead : UInt8}
    {rest : List UInt8}
    (h : Reads c lead rest) (hle : (encode pre).length ≤ k)
    (hlt : k < (encode pre).length + c.utf8Size) :
    (encode (pre ++ c :: post)).getD k 0 = lead ∧ k = (encode pre).length ∨
      (encode (pre ++ c :: post)).getD k 0 ∈ rest ∧ (encode pre).length < k := by
  have hget : (encode (pre ++ c :: post)).getD k 0 =
      (lead :: rest).getD (k - (encode pre).length) 0 := by
    rw [encode_append, encode_cons, h.encode, List.getD_append_right _ _ _ _ hle]
    rw [h.size] at hlt
    exact List.getD_append _ _ _ _ (by rw [List.length_cons]; omega)
  rw [hget]
  cases hoffset : k - (encode pre).length with
  | zero => exact .inl ⟨rfl, by omega⟩
  | succ i =>
    have hi : i < rest.length := by
      rw [h.size] at hlt
      omega
    refine .inr ⟨?_, by omega⟩
    rw [List.getD_cons_succ, List.getD_eq_getElem _ _ hi]
    exact List.getElem_mem hi

theorem boundary_end {pre post : List Char} {c : Char} :
    Boundary (pre ++ c :: post) ((encode pre).length + c.utf8Size) := by
  refine ⟨pre ++ [c], post, by rw [List.append_assoc]; rfl, ?_⟩
  rw [encode_append, encode_cons, encode_nil, List.append_nil, List.length_append,
    String.length_utf8EncodeChar]

theorem boundary_of_stopAt (h : stopAt (encode cs) start k = some stop) : Boundary cs stop := by
  unfold stopAt at h
  dsimp only at h
  split_ifs at h with hstop
  cases h
  obtain ⟨hwidth, -, hfits, -⟩ := hstop
  have hin : k < (encode cs).length := by omega
  obtain ⟨pre, c, post, rfl, hle, hlt⟩ := exists_char_at hin
  obtain ⟨lead, rest, hreads⟩ := exists_reads c
  rcases getD_encode post hreads hle hlt with ⟨hlead, hk⟩ | ⟨hrest, -⟩
  · rw [hlead, hreads.width] at hwidth ⊢
    rw [if_neg fun hnil => hwidth (if_pos hnil), hk, ← hreads.size]
    exact boundary_end
  · exact absurd (hreads.continues _ hrest).2 hwidth

theorem stopAt_isSome {pre : List Char} (post : List Char) {c : Char}
    (hlt : (encode pre).length < start)
    (hstart : start < (encode pre).length + c.utf8Size) :
    (stopAt (encode (pre ++ c :: post)) start (encode pre).length).isSome := by
  obtain ⟨lead, rest, hreads⟩ := exists_reads c
  have hsize := hreads.size
  have hne : rest ≠ [] := by
    rintro rfl
    rw [List.length_nil] at hsize
    omega
  have hdrop : (encode (pre ++ c :: post)).drop (encode pre).length =
      encode [c] ++ encode post := by
    rw [encode_append, List.drop_left, ← encode_append]
    rfl
  have hone : (encode [c]).length = rest.length + 1 := by
    rw [encode_cons, encode_nil, List.append_nil, String.length_utf8EncodeChar, hsize]
  have hlength : (encode (pre ++ c :: post)).length =
      (encode pre).length + (rest.length + 1) + (encode post).length := by
    rw [encode_append, encode_cons, List.length_append, List.length_append,
      String.length_utf8EncodeChar, hsize]
    omega
  have hlead : (encode (pre ++ c :: post)).getD (encode pre).length 0 = lead := by
    rcases getD_encode post hreads (Nat.le_refl _) (by omega) with ⟨hlead, -⟩ | ⟨-, hlt⟩
    · exact hlead
    · exact absurd hlt (Nat.lt_irrefl _)
  have hwidth : leadWidth lead.toNat = rest.length + 1 := hreads.width.trans (if_neg hne)
  unfold stopAt
  dsimp only
  rw [hlead, hwidth, hdrop, ← hone, List.take_left, hone, if_pos]
  · rfl
  · exact ⟨by omega, by omega, by omega, isSome_fromUtf8_encode [c]⟩

/-- The cut of a valid log is moved to a character boundary. -/
theorem boundary_nextUtf8Boundary (hstart : start ≤ (encode cs).length) :
    Boundary cs (nextUtf8Boundary (encode cs) start) := by
  rw [nextUtf8Boundary_eq]
  by_cases hend : start = (encode cs).length
  · rw [if_pos (.inr (.inl (Nat.le_of_eq hend.symm))), hend]
    exact ⟨cs, [], (List.append_nil cs).symm, rfl⟩
  have hin : start < (encode cs).length := by omega
  obtain ⟨pre, c, post, rfl, hle, hlt⟩ := exists_char_at hin
  obtain ⟨lead, rest, hreads⟩ := exists_reads c
  rcases getD_encode post hreads hle hlt with ⟨hlead, hk⟩ | ⟨hrest, hinside⟩
  · rw [hlead, hreads.leads, if_pos (.inr (.inr rfl))]
    exact ⟨pre, c :: post, rfl, hk.symm⟩
  · rw [(hreads.continues _ hrest).1, if_neg (by
      simp only [Bool.not_true, Bool.false_eq_true, or_false, not_or]
      omega)]
    obtain ⟨stop, hstop⟩ := Option.isSome_iff_exists.mp (stopAt_isSome post hinside hlt)
    have hsize := c.utf8Size_le_four
    have hmem : stop ∈ (List.range' (start - 3) (start - (start - 3))).filterMap
        (stopAt (encode (pre ++ c :: post)) start) :=
      List.mem_filterMap.mpr ⟨_, List.mem_range'_1.mpr (by omega), hstop⟩
    cases hends : (List.range' (start - 3) (start - (start - 3))).filterMap
        (stopAt (encode (pre ++ c :: post)) start) with
    | nil =>
      rw [hends] at hmem
      exact nomatch hmem
    | cons first others =>
      have hfirst := hends ▸ List.mem_cons_self (a := first) (l := others)
      obtain ⟨candidate, -, hcandidate⟩ := List.mem_filterMap.mp hfirst
      exact boundary_of_stopAt hcandidate

end

/-! ## Lines -/

section
variable {text : List Char} {maxLines r : Nat}

/-- What `str::lines` counts. -/
def lineCount (text : List Char) : Nat :=
  text.count '\n' + if text = [] ∨ text.getLast? = some '\n' then 0 else 1

/-- The last line of a text, with the line feed that ends it. -/
def lastLine (text : List Char) : List Char :=
  (text.dropLast.reverse.takeWhile (· ≠ '\n')).reverse ++ text.getLast?.toList

theorem lastLinesScan_spec (l : List Char) (lines : Nat) (hlines : lines ≤ maxLines) :
    (l.take (l.length - lastLinesScan maxLines l lines)).count '\n' + lines ≤ maxLines ∧
      lastLinesScan maxLines l lines ≤ l.length ∧
      (lastLinesScan maxLines l lines ≠ 0 →
        l[l.length - lastLinesScan maxLines l lines]? = some '\n') := by
  induction l generalizing lines with
  | nil => exact ⟨by rwa [List.take_nil, List.count_nil, Nat.zero_add], Nat.le_refl 0,
      fun h => absurd rfl h⟩
  | cons c before ih =>
    unfold lastLinesScan
    split_ifs with hc hfull
    · rw [Nat.sub_self]
      exact ⟨by rwa [List.take_zero, List.count_nil, Nat.zero_add], Nat.le_refl _,
        fun _ => congrArg some hc⟩
    · obtain ⟨hcount, hle, hfeed⟩ := ih (lines + 1) (Nat.le_of_not_lt hfull)
      rw [List.length_cons, Nat.succ_sub hle]
      refine ⟨?_, Nat.le_succ_of_le hle, fun h => hfeed h⟩
      rw [List.take_succ_cons, hc, List.count_cons_self]
      omega
    · obtain ⟨hcount, hle, hfeed⟩ := ih lines hlines
      rw [List.length_cons, Nat.succ_sub hle]
      refine ⟨?_, Nat.le_succ_of_le hle, fun h => hfeed h⟩
      rwa [List.take_succ_cons, List.count_cons_of_ne hc]

theorem lineCount_le (text : List Char) : lineCount text ≤ text.count '\n' + 1 := by
  unfold lineCount
  split_ifs <;> omega

theorem lineCount_feed (text : List Char) :
    lineCount (text ++ ['\n']) = text.count '\n' + 1 := by
  unfold lineCount
  rw [if_pos (.inr List.getLast?_concat), List.count_append]
  rfl

theorem scanned_spec (scanned : List Char) (hlines : 0 < maxLines) :
    (scanned.drop (lastLinesScan maxLines scanned.reverse 1)).count '\n' + 1 ≤ maxLines ∧
      lastLinesScan maxLines scanned.reverse 1 ≤ scanned.length ∧
      (lastLinesScan maxLines scanned.reverse 1 ≠ 0 →
        (scanned.take (lastLinesScan maxLines scanned.reverse 1)).getLast? = some '\n') := by
  obtain ⟨hcount, hle, hfeed⟩ := lastLinesScan_spec scanned.reverse 1 hlines
  generalize lastLinesScan maxLines scanned.reverse 1 = r at hcount hle hfeed ⊢
  rw [List.length_reverse] at hcount hle hfeed
  rw [List.take_reverse, List.count_reverse, show scanned.length - (scanned.length - r) = r by
    omega] at hcount
  refine ⟨hcount, hle, fun hr => ?_⟩
  have hlast := hfeed hr
  rw [List.getElem?_reverse (by omega), show scanned.length - 1 - (scanned.length - r) = r - 1 by
    omega] at hlast
  rw [List.getLast?_take, if_neg hr, hlast]
  rfl

/-- The last lines are at most so many, and begin after a line feed unless they are all. -/
theorem lastLinesStart_spec (text : List Char) (hlines : 0 < maxLines) :
    lineCount (text.drop (lastLinesStart text maxLines)) ≤ maxLines ∧
      (lastLinesStart text maxLines ≠ 0 →
        (text.take (lastLinesStart text maxLines)).getLast? = some '\n') := by
  unfold lastLinesStart
  dsimp only
  split_ifs with hend
  · obtain ⟨scanned, rfl⟩ := List.getLast?_eq_some_iff.mp hend
    rw [List.dropLast_concat]
    obtain ⟨hcount, hle, hfeed⟩ := scanned_spec scanned hlines
    rw [List.drop_append_of_le_length hle, lineCount_feed, List.take_append_of_le_length hle]
    exact ⟨hcount, hfeed⟩
  · obtain ⟨hcount, -, hfeed⟩ := scanned_spec text hlines
    exact ⟨(lineCount_le _).trans hcount, hfeed⟩

theorem suffix_lastLine {before : List Char} (h : '\n' ∉ text.dropLast) :
    text <:+ lastLine (before ++ text) := by
  cases hlast : text.getLast? with
  | none =>
    rw [List.getLast?_eq_none_iff.mp hlast]
    exact List.nil_suffix
  | some c =>
    obtain ⟨init, rfl⟩ := List.getLast?_eq_some_iff.mp hlast
    rw [List.dropLast_concat] at h
    have hkept : ∀ d ∈ init.reverse, decide (d ≠ '\n') = true := fun d hd =>
      decide_eq_true fun heq => h (heq ▸ List.mem_reverse.mp hd)
    unfold lastLine
    rw [← List.append_assoc, List.dropLast_concat, List.getLast?_concat, List.reverse_append,
      List.takeWhile_append_of_pos hkept, List.reverse_append, List.reverse_reverse,
      List.append_assoc]
    exact List.suffix_append _ _

/-! ## Bytes -/

theorem utf8Length_drop (text : List Char) (k : Nat) :
    utf8Length (text.drop k) ≤ utf8Length text := by
  have hsplit := congrArg utf8Length (List.take_append_drop k text)
  unfold utf8Length at hsplit ⊢
  rw [List.map_append, List.sum_append] at hsplit
  omega

theorem utf8Length_suffixStart (text : List Char) (maxBytes : Nat) :
    utf8Length (text.drop (suffixStart text maxBytes)) ≤ maxBytes := by
  induction text with
  | nil => exact Nat.zero_le maxBytes
  | cons c rest ih =>
    unfold suffixStart
    split_ifs with h
    · exact h
    · exact ih

theorem suffixStart_of_le {maxBytes : Nat} (h : utf8Length text ≤ maxBytes) :
    suffixStart text maxBytes = 0 := by
  cases text with
  | nil => rfl
  | cons c rest => exact if_pos h

theorem utf8Size_eq (c : Char) : c.utf8Size =
    if c.toNat < 0x80 then 1 else if c.toNat < 0x800 then 2
    else if c.toNat < 0x10000 then 3 else 4 := by
  rw [← String.length_utf8EncodeChar]
  split_ifs with h₁ h₂ h₃
  · rw [encode_one h₁]
    rfl
  · rw [encode_two (Nat.le_of_not_lt h₁) h₂]
    rfl
  · rw [encode_three (Nat.le_of_not_lt h₂) h₃]
    rfl
  · rw [encode_four (Nat.le_of_not_lt h₃)]
    rfl

theorem utf8Size_ofNat {n : Nat} (h : n.isValidChar) : (Char.ofNat n).utf8Size =
    if n < 0x80 then 1 else if n < 0x800 then 2 else if n < 0x10000 then 3 else 4 := by
  have hval : (Char.ofNat n).toNat = n := by
    unfold Char.ofNat
    rw [dif_pos h]
    rfl
  rw [utf8Size_eq, hval]

/-- The width of a sequence, against the size of what it is decoded to. -/
theorem sequenceAt_width {lead : UInt8} {rest : List UInt8} {width : Nat} {whole : Bool}
    (h : sequenceAt lead rest = (width, whole)) :
    0 < width ∧ width ≤ if whole then (sequenceChar lead rest).utf8Size else 3 := by
  have hhead : rest.headD 0 = rest.getD 0 0 := by cases rest <;> rfl
  unfold sequenceAt at h
  unfold sequenceChar
  rw [hhead] at h
  dsimp only at h ⊢
  generalize (rest.getD 1 0).toNat = y at h ⊢
  generalize (rest.getD 2 0).toNat = z at h ⊢
  generalize (rest.getD 0 0).toNat = x at h ⊢
  generalize lead.toNat = b at h ⊢
  by_cases h₁ : b < 0x80
  · rw [if_pos h₁] at h ⊢
    cases h
    exact ⟨Nat.one_pos, Char.utf8Size_pos _⟩
  rw [if_neg h₁] at h ⊢
  by_cases h₂ : 0xC2 ≤ b ∧ b ≤ 0xDF
  · rw [if_pos h₂] at h
    have hlt : b < 0xE0 := Nat.lt_succ_of_le h₂.2
    have hvalid : (b % 32 * 64 + x % 64).isValidChar := .inl (by omega)
    rw [if_pos hlt, utf8Size_ofNat hvalid]
    split at h <;> cases h
    · refine ⟨Nat.two_pos, ?_⟩
      rw [if_pos rfl, if_neg (by omega)]
      split_ifs <;> decide
    · exact ⟨Nat.one_pos, show 1 ≤ 3 by decide⟩
  rw [if_neg h₂] at h
  by_cases h₃ : 0xE0 ≤ b ∧ b ≤ 0xEF
  · rw [if_pos h₃] at h
    rw [if_neg (by omega : ¬ b < 0xE0), if_pos (Nat.lt_succ_of_le h₃.2)]
    by_cases hsecond : (if b = 0xE0 then 0xA0 else 0x80) ≤ x ∧
        x ≤ if b = 0xED then 0x9F else 0xBF
    · rw [if_pos hsecond] at h
      split at h <;> cases h
      · have hvalid : ((b % 16 * 64 + x % 64) * 64 + y % 64).isValidChar := by
          unfold Nat.isValidChar
          split_ifs at hsecond <;> omega
        refine ⟨by decide, ?_⟩
        rw [if_pos rfl, utf8Size_ofNat hvalid]
        split_ifs at hsecond ⊢ <;> omega
      · exact ⟨Nat.two_pos, show 2 ≤ 3 by decide⟩
    · rw [if_neg hsecond] at h
      cases h
      exact ⟨Nat.one_pos, show 1 ≤ 3 by decide⟩
  rw [if_neg h₃] at h
  by_cases h₄ : 0xF0 ≤ b ∧ b ≤ 0xF4
  · rw [if_pos h₄] at h
    rw [if_neg (by omega : ¬ b < 0xE0), if_neg (by omega : ¬ b < 0xF0)]
    by_cases hsecond : (if b = 0xF0 then 0x90 else 0x80) ≤ x ∧
        x ≤ if b = 0xF4 then 0x8F else 0xBF
    · rw [if_pos hsecond] at h
      split at h
      · split at h <;> cases h
        · have hvalid : (((b % 8 * 64 + x % 64) * 64 + y % 64) * 64 + z % 64).isValidChar := by
            unfold Nat.isValidChar
            split_ifs at hsecond <;> omega
          refine ⟨by decide, ?_⟩
          rw [if_pos rfl, utf8Size_ofNat hvalid]
          split_ifs at hsecond ⊢ <;> omega
        · exact ⟨Nat.succ_pos 2, show 3 ≤ 3 by decide⟩
      · cases h
        exact ⟨Nat.two_pos, show 2 ≤ 3 by decide⟩
    · rw [if_neg hsecond] at h
      cases h
      exact ⟨Nat.one_pos, show 1 ≤ 3 by decide⟩
  · rw [if_neg h₄] at h
    cases h
    exact ⟨Nat.one_pos, show 1 ≤ 3 by decide⟩

/-- Decoding never shortens: a broken sequence of at most three bytes becomes three. -/
theorem length_le_utf8Length (bytes : List UInt8) (skip : Nat) :
    bytes.length ≤ utf8Length (fromUtf8LossyFrom bytes skip) + skip := by
  induction bytes generalizing skip with
  | nil => exact Nat.zero_le _
  | cons lead rest ih =>
    cases skip with
    | succ skip =>
      have hrest := ih skip
      rw [List.length_cons, fromUtf8LossyFrom]
      omega
    | zero =>
      obtain ⟨width, whole, h⟩ : ∃ width whole, sequenceAt lead rest = (width, whole) :=
        ⟨_, _, rfl⟩
      obtain ⟨hpos, hwidth⟩ := sequenceAt_width h
      have hrest := ih (width - 1)
      rw [List.length_cons, fromUtf8LossyFrom, h]
      cases whole with
      | true =>
        change _ ≤ (sequenceChar lead rest).utf8Size + utf8Length _
        rw [if_pos rfl] at hwidth
        omega
      | false =>
        change _ ≤ 3 + utf8Length _
        rw [if_neg Bool.false_ne_true] at hwidth
        omega

theorem fromUtf8Lossy_ne_nil {bytes : List UInt8} (h : bytes ≠ []) : fromUtf8Lossy bytes ≠ [] := by
  intro hnil
  have hle := length_le_utf8Length bytes 0
  rw [fromUtf8Lossy] at hnil
  rw [hnil] at hle
  exact h (List.eq_nil_of_length_eq_zero (Nat.le_zero.mp hle))

end

/-! ## The tail -/

section
variable {input : List UInt8} {maxBytes maxLines : Nat}

def partialLineStart (startsMidLine : Bool) (text : List Char) : Nat :=
  if startsMidLine then
    match text.findIdx? (· == '\n') with
    | some index => if index + 1 < text.length then index + 1 else 0
    | none => 0
  else 0

/-- The cuts that follow the first, on the decoded text. -/
structure Cuts (decoded : List Char) (midLine : Bool) (maxBytes maxLines : Nat) where
  byteStart : Nat
  partialStart : Nat
  lineStart : Nat
  bytes : byteStart = suffixStart decoded maxBytes
  startsMidLine : partialStart =
    partialLineStart (if 0 < byteStart then decoded[byteStart - 1]? != some '\n' else midLine)
      (decoded.drop byteStart)
  lines : lineStart = lastLinesStart ((decoded.drop byteStart).drop partialStart) maxLines

def Cuts.text {decoded : List Char} {midLine : Bool}
    (c : Cuts decoded midLine maxBytes maxLines) : List Char :=
  ((decoded.drop c.byteStart).drop c.partialStart).drop c.lineStart

def Cuts.of (decoded : List Char) (midLine : Bool) (maxBytes maxLines : Nat) :
    Cuts decoded midLine maxBytes maxLines := ⟨_, _, _, rfl, rfl, rfl⟩

/-- Whether the window of a log begins inside a line. -/
def midLine (input : List UInt8) (sourceStart : Nat) : Bool :=
  decide (0 < sourceStart) && input[sourceStart - 1]? != some 0x0A

theorem extract_eq (hinput : input ≠ []) (hlimits : ¬ (maxBytes = 0 ∨ maxLines = 0)) :
    ∃ sourceStart, sourceStart = nextUtf8Boundary input (input.length - maxBytes) ∧
      ∃ c : Cuts (fromUtf8Lossy (input.drop sourceStart)) (midLine input sourceStart) maxBytes
          maxLines,
        extract input maxBytes maxLines =
          { text := String.ofList c.text
            truncated := decide (0 < sourceStart ∨ 0 < c.byteStart ∨ 0 < c.partialStart ∨
              0 < c.lineStart)
            invalidUtf8 := (fromUtf8 (input.drop sourceStart)).isNone } := by
  refine ⟨_, rfl, Cuts.of _ _ maxBytes maxLines, ?_⟩
  unfold extract
  rw [if_neg hinput, if_neg hlimits]
  rfl

section cuts
variable {decoded : List Char} {mid : Bool} (c : Cuts decoded mid maxBytes maxLines)

theorem Cuts.utf8Length_text : utf8Length c.text ≤ maxBytes := by
  have hbytes := utf8Length_suffixStart decoded maxBytes
  rw [← c.bytes] at hbytes
  calc
    utf8Length c.text ≤ utf8Length ((decoded.drop c.byteStart).drop c.partialStart) :=
      utf8Length_drop _ _
    _ ≤ utf8Length (decoded.drop c.byteStart) := utf8Length_drop _ _
    _ ≤ maxBytes := hbytes

theorem Cuts.lineCount_text (hlines : 0 < maxLines) : lineCount c.text ≤ maxLines := by
  have hspec := (lastLinesStart_spec ((decoded.drop c.byteStart).drop c.partialStart) hlines).1
  rwa [← c.lines] at hspec

theorem Cuts.text_eq : c.text = decoded.drop (c.byteStart + c.partialStart + c.lineStart) := by
  unfold Cuts.text
  rw [List.drop_drop, List.drop_drop, Nat.add_assoc]

end cuts

theorem encode_text (cs : List Char) : (utf8 (String.ofList cs)).length = utf8Length cs := by
  rw [utf8_ofList, length_encode]

/-- A text is shortened exactly when the tail says so. -/
theorem truncated_iff (hinput : input ≠ []) (hlimits : ¬ (maxBytes = 0 ∨ maxLines = 0)) :
    (extract input maxBytes maxLines).truncated = false ↔
      (extract input maxBytes maxLines).text = String.ofList (fromUtf8Lossy input) := by
  obtain ⟨sourceStart, hstart, c, heq⟩ := extract_eq hinput hlimits
  rw [heq]
  dsimp only
  rw [decide_eq_false_iff_not, String.ofList_inj]
  constructor
  · intro h
    have hzero : sourceStart = 0 ∧ c.byteStart + c.partialStart + c.lineStart = 0 := by omega
    rw [c.text_eq, hzero.2, List.drop_zero, hzero.1, List.drop_zero]
  · intro htext hcut
    by_cases hsource : sourceStart = 0
    · have hdrop := congrArg List.length (c.text_eq.symm.trans htext)
      rw [List.length_drop] at hdrop
      have hwhole : (fromUtf8Lossy (input.drop sourceStart)).length =
          (fromUtf8Lossy input).length := by rw [hsource, List.drop_zero]
      have hne := List.length_pos_iff.mpr (fromUtf8Lossy_ne_nil hinput)
      omega
    · have hlong : maxBytes < input.length := by
        by_contra hshort
        rw [Nat.sub_eq_zero_of_le (Nat.le_of_not_lt hshort)] at hstart
        exact hsource (hstart.trans (if_pos (.inl rfl)))
      have hle := length_le_utf8Length input 0
      have hbytes := c.utf8Length_text
      rw [htext] at hbytes
      unfold fromUtf8Lossy at hbytes
      omega

/-! ## Valid logs -/

/-- The byte before a boundary is a line feed exactly when the character before it is. -/
theorem getElem?_encode_feed {pre : List Char} (post : List Char) (hpre : pre ≠ []) :
    (encode (pre ++ post))[(encode pre).length - 1]? = some 0x0A ↔
      pre.getLast? = some '\n' := by
  rcases List.eq_nil_or_concat pre with rfl | ⟨init, c, rfl⟩
  · exact absurd rfl hpre
  rw [List.concat_eq_append] at hpre ⊢
  obtain ⟨lead, rest, h⟩ := exists_reads c
  have hbytes : encode (init ++ [c]) = encode init ++ lead :: rest := by
    rw [encode_append, encode_cons, encode_nil, List.append_nil, h.encode]
  have hlength : (encode (init ++ [c])).length ≠ 0 := by
    rw [hbytes, List.length_append, List.length_cons]
    omega
  have hlast : (encode (init ++ [c] ++ post))[(encode (init ++ [c])).length - 1]? =
      (lead :: rest).getLast? := by
    rw [encode_append, List.getElem?_append_left (by omega), ← List.getLast?_eq_getElem?, hbytes,
      List.getLast?_append_cons]
  rw [hlast, List.getLast?_concat]
  by_cases hrest : rest = []
  · rw [hrest, List.getLast?_singleton, Option.some_inj, Option.some_inj, h.feed]
  · have hmem := List.getLast?_eq_some_getLast hrest
    generalize rest.getLast hrest = last at hmem
    rw [List.getLast?_cons, hmem, Option.getD_some, Option.some_inj, Option.some_inj]
    have hcontinues := (h.continues last (List.mem_of_getLast? hmem)).1
    refine iff_of_false (fun heq => ?_) fun heq => ?_
    · rw [heq] at hcontinues
      exact absurd hcontinues (by decide)
    · have hwidth := h.width
      rw [if_neg hrest, h.feed.mpr heq] at hwidth
      exact absurd hwidth (by rw [show leadWidth (0x0A : UInt8).toNat = 0 from rfl]; omega)

theorem partialLineStart_feed {mid : Bool} {text : List Char}
    (h : partialLineStart mid text ≠ 0) :
    (text.take (partialLineStart mid text)).getLast? = some '\n' := by
  unfold partialLineStart at h ⊢
  cases mid with
  | false => exact absurd rfl h
  | true =>
    rw [if_pos rfl] at h ⊢
    cases hindex : text.findIdx? (· == '\n') with
    | none =>
      rw [hindex] at h
      exact absurd rfl h
    | some index =>
      rw [hindex] at h
      dsimp only at h ⊢
      obtain ⟨hlt, hfeed, -⟩ := List.findIdx?_eq_some_iff_getElem.mp hindex
      by_cases hinside : index + 1 < text.length
      · rw [if_pos hinside, List.getLast?_take, if_neg (Nat.succ_ne_zero index),
          Nat.add_sub_cancel, List.getElem?_eq_getElem hlt, beq_iff_eq.mp hfeed]
        rfl
      · rw [if_neg hinside] at h
        exact absurd rfl h

theorem not_mem_of_partialLineStart {text : List Char} (h : partialLineStart true text = 0) :
    '\n' ∉ text.dropLast := by
  intro hmem
  obtain ⟨j, hj, hfeed⟩ := List.getElem_of_mem hmem
  rw [List.getElem_dropLast] at hfeed
  rw [List.length_dropLast] at hj
  unfold partialLineStart at h
  rw [if_pos rfl] at h
  cases hindex : text.findIdx? (· == '\n') with
  | none =>
    have hnone := List.findIdx?_eq_none_iff.mp hindex text[j] (List.getElem_mem _)
    rw [hfeed] at hnone
    exact absurd hnone (by decide)
  | some index =>
    rw [hindex] at h
    dsimp only at h
    obtain ⟨hlt, -, hfirst⟩ := List.findIdx?_eq_some_iff_getElem.mp hindex
    have hle : index ≤ j := by
      by_contra hgt
      exact hfirst j (Nat.lt_of_not_le hgt) (beq_iff_eq.mpr hfeed)
    rw [if_pos (by omega)] at h
    exact absurd h (Nat.succ_ne_zero index)

/-- A tail of a valid log begins at the start of a line, or inside the last one. -/
theorem begins_of_valid {pre post decoded : List Char} {mid : Bool} (hdecoded : post = decoded)
    (hmid : mid = midLine (encode (pre ++ post)) (encode pre).length)
    (hfits : utf8Length post ≤ maxBytes) (hlines : 0 < maxLines)
    (c : Cuts decoded mid maxBytes maxLines) :
    ∃ before, pre ++ post = before ++ c.text ∧
      (before = [] ∨ before.getLast? = some '\n' ∨ c.text <:+ lastLine (pre ++ post)) := by
  subst hdecoded hmid
  have hbytes : c.byteStart = 0 := c.bytes.trans (suffixStart_of_le hfits)
  have hwhole := c.startsMidLine
  have hline := c.lines
  unfold Cuts.text
  rw [hbytes, if_neg (Nat.lt_irrefl 0), List.drop_zero] at hwhole
  rw [hbytes, List.drop_zero] at hline ⊢
  generalize c.partialStart = p at hwhole hline ⊢
  generalize c.lineStart = l at hline ⊢
  refine ⟨pre ++ (post.take p ++ (post.drop p).take l), ?_, ?_⟩
  · rw [List.append_assoc, List.append_assoc, List.take_append_drop, List.take_append_drop]
  by_cases hl : l = 0
  · rw [hl, List.take_zero, List.append_nil, List.drop_zero]
    by_cases hp : p = 0
    · rw [hp, List.take_zero, List.append_nil, List.drop_zero]
      cases hmid : midLine (encode (pre ++ post)) (encode pre).length with
      | true =>
        rw [hmid, hp] at hwhole
        exact .inr (.inr (suffix_lastLine (not_mem_of_partialLineStart hwhole.symm)))
      | false =>
        by_cases hpre : pre = []
        · exact .inl hpre
        · refine .inr (.inl ((getElem?_encode_feed post hpre).mp ?_))
          have hpos : 0 < (encode pre).length := by
            obtain ⟨d, rest, rfl⟩ := List.exists_cons_of_ne_nil hpre
            rw [encode_cons, List.length_append, String.length_utf8EncodeChar]
            exact Nat.add_pos_left (Char.utf8Size_pos d) _
          unfold midLine at hmid
          rw [decide_eq_true hpos, Bool.true_and] at hmid
          simpa using hmid
    · refine .inr (.inl ?_)
      rw [hwhole] at hp ⊢
      rw [List.getLast?_append, partialLineStart_feed hp]
      rfl
  · refine .inr (.inl ?_)
    have hfeed := (lastLinesStart_spec (post.drop p) hlines).2
    rw [← hline] at hfeed
    rw [List.getLast?_append, List.getLast?_append, hfeed hl]
    rfl

/-- What the tail of a log is. -/
structure Tail (input : List UInt8) (maxBytes maxLines : Nat) (tail : ProjectLogTail) : Prop where
  bytes : (utf8 tail.text).length ≤ maxBytes
  lines : lineCount tail.text.toList ≤ maxLines
  truncated : tail.truncated = false ↔ tail.text = String.ofList (fromUtf8Lossy input)
  valid : ∀ log, fromUtf8 input = some log → 0 < maxBytes → 0 < maxLines →
    tail.invalidUtf8 = false ∧ ∃ before, log.toList = before ++ tail.text.toList ∧
      (before = [] ∨ before.getLast? = some '\n' ∨ tail.text.toList <:+ lastLine log.toList)

theorem valid_extract {cs : List Char} (hinput : encode cs ≠ [])
    (hlimits : ¬ (maxBytes = 0 ∨ maxLines = 0)) :
    (extract (encode cs) maxBytes maxLines).invalidUtf8 = false ∧
      ∃ before, cs = before ++ (extract (encode cs) maxBytes maxLines).text.toList ∧
        (before = [] ∨ before.getLast? = some '\n' ∨
          (extract (encode cs) maxBytes maxLines).text.toList <:+ lastLine cs) := by
  obtain ⟨sourceStart, hstart, c, heq⟩ := extract_eq hinput hlimits
  obtain ⟨pre, post, hcs, hpre⟩ : Boundary cs sourceStart :=
    hstart ▸ boundary_nextUtf8Boundary (Nat.sub_le _ _)
  have hsource : (encode cs).drop sourceStart = encode post := by
    rw [hcs, ← hpre, encode_append, List.drop_left]
  have hfits : utf8Length post ≤ maxBytes := by
    have hlength := congrArg List.length hsource
    have hle := le_nextUtf8Boundary (encode cs) ((encode cs).length - maxBytes)
    rw [List.length_drop] at hlength
    rw [← length_encode]
    omega
  have hdecoded : fromUtf8Lossy ((encode cs).drop sourceStart) = post := by
    rw [hsource, fromUtf8Lossy_encode]
  have hbegins := begins_of_valid hdecoded.symm (by rw [hcs, hpre]) hfits (by omega) c
  rw [heq]
  refine ⟨?_, ?_⟩
  · dsimp only
    rw [hsource, Option.isNone_eq_false_iff]
    exact isSome_fromUtf8_encode post
  · rw [← hcs] at hbegins
    dsimp only
    rwa [String.toList_ofList]

theorem tail_extract (input : List UInt8) (maxBytes maxLines : Nat) :
    Tail input maxBytes maxLines (extract input maxBytes maxLines) := by
  by_cases hinput : input = []
  · have heq : extract input maxBytes maxLines = ⟨"", false, false⟩ := if_pos hinput
    rw [heq, hinput]
    refine ⟨Nat.zero_le _, Nat.zero_le _, iff_of_true rfl rfl, fun log hlog _ _ => ⟨rfl, [], ?_⟩⟩
    have hempty : log.toList = [] := by
      have hencode := encode_of_fromUtf8 hlog
      rw [← fromUtf8Lossy_encode log.toList, ← hencode]
      rfl
    exact ⟨hempty, .inl rfl⟩
  by_cases hlimits : maxBytes = 0 ∨ maxLines = 0
  · have heq : extract input maxBytes maxLines = ⟨"", true, false⟩ :=
      (if_neg hinput).trans (if_pos hlimits)
    rw [heq]
    refine ⟨Nat.zero_le _, Nat.zero_le _, iff_of_false nofun ?_,
      fun log _ hbytes hlines => by omega⟩
    intro hempty
    have hnil := congrArg String.toList hempty
    exact fromUtf8Lossy_ne_nil hinput (String.toList_ofList.symm.trans hnil.symm)
  obtain ⟨sourceStart, hstart, c, heq⟩ := extract_eq hinput hlimits
  refine ⟨?_, ?_, truncated_iff hinput hlimits, fun log hlog _ _ => ?_⟩
  · rw [heq, encode_text]
    exact c.utf8Length_text
  · rw [heq]
    dsimp only
    rw [String.toList_ofList]
    exact c.lineCount_text (by omega)
  · obtain rfl := encode_of_fromUtf8 hlog
    exact valid_extract hinput hlimits

end
end FaultLane.LogTail
