import FaultLane.GroupingText

set_option autoImplicit false

/-!
# Templates of generic messages

A message made of words, volatile values and separators, and the template it gets when
the values are read as they stand.
-/
namespace FaultLane.GroupingTemplate
open RustText GroupingText

section Letters

theorem toLower_toNat (c : Char) :
    c.toLower.toNat = if 65 ≤ c.toNat ∧ c.toNat ≤ 90 then c.toNat + 32 else c.toNat := by
  have hcase : (c.val ≥ 'A'.val ∧ c.val ≤ 'Z'.val) ↔ 65 ≤ c.toNat ∧ c.toNat ≤ 90 := Iff.rfl
  unfold Char.toLower
  by_cases h : c.val ≥ 'A'.val ∧ c.val ≤ 'Z'.val
  · rw [dif_pos h, if_pos (hcase.mp h)]
    have hle := (hcase.mp h).2
    change (c.val + 32).toNat = _
    rw [UInt32.toNat_add]
    change (c.toNat + 32) % 2 ^ 32 = _
    omega
  · rw [dif_neg h, if_neg (mt hcase.mpr h)]

theorem isAsciiHexdigit_toLower (c : Char) : isAsciiHexdigit c.toLower = isAsciiHexdigit c := by
  rw [Bool.eq_iff_iff]
  simp only [isAsciiHexdigit, isAsciiDigit, toLower_toNat, Bool.or_eq_true, Bool.and_eq_true,
    decide_eq_true_eq]
  split_ifs <;> omega

theorem isAlphanumeric_toLower (unicode : Char → Bool) (c : Char) :
    isAlphanumeric unicode c.toLower = isAlphanumeric unicode c := by
  by_cases hcase : 65 ≤ c.toNat ∧ c.toNat ≤ 90
  · have hascii : c.toNat < 0x80 := by omega
    have hlower : c.toLower.toNat < 0x80 := by
      rw [toLower_toNat, if_pos hcase]
      omega
    rw [isAlphanumeric, isAlphanumeric, if_pos hascii, if_pos hlower, Bool.eq_iff_iff]
    simp only [isAsciiAlphanumeric, isAsciiDigit, toLower_toNat, if_pos hcase, Bool.or_eq_true,
      Bool.and_eq_true, decide_eq_true_eq]
    omega
  · have hsame : c.toLower = c := by
      apply Char.toNat_inj.mp
      rw [toLower_toNat, if_neg hcase]
    rw [hsame]

def isLowerLetter (c : Char) : Bool := 97 ≤ c.toNat && c.toNat ≤ 122

/-- What the tests of the template loop say of a letter of either case. -/
theorem letter_tests {c : Char} (h : isLowerLetter c.toLower = true) :
    isAsciiDigit c = false ∧ isWhitespace c = false ∧ isControl c = false := by
  have hrange : (65 ≤ c.toNat ∧ c.toNat ≤ 90) ∨ (97 ≤ c.toNat ∧ c.toNat ≤ 122) := by
    simp only [isLowerLetter, toLower_toNat, Bool.and_eq_true, decide_eq_true_eq] at h
    split_ifs at h <;> omega
  simp only [isAsciiDigit, isWhitespace, isControl, ← Bool.not_eq_true, Bool.or_eq_true,
    Bool.and_eq_true, decide_eq_true_eq, beq_iff_eq]
  omega

theorem isWhitespace_toLower (c : Char) : isWhitespace c.toLower = isWhitespace c := by
  rw [Bool.eq_iff_iff]
  simp only [isWhitespace, toLower_toNat, Bool.or_eq_true, Bool.and_eq_true, decide_eq_true_eq,
    beq_iff_eq]
  split_ifs <;> omega

end Letters

/-- A part of a message: a word, a value with its placeholder, or a character between. -/
inductive Piece where
  | word (text : Text)
  | value (placeholder text : Text)
  | separator (c : Char)
  deriving DecidableEq, Repr

def Piece.text : Piece → Text
  | .word text => text
  | .value _ text => text
  | .separator c => [c]

def Piece.isSeparator : Piece → Bool
  | .separator _ => true
  | _ => false

def d3d : Text := "d3d".toList

/-- The one listed word with a digit in it. -/
def Piece.isD3d : Piece → Bool
  | .word text => toAsciiLowercase text == d3d
  | _ => false

def messageText (pieces : List Piece) : Text := pieces.flatMap Piece.text

section Generic
variable (unicode : Char → Bool)

def isSeparatorChar (c : Char) : Bool :=
  !isAlphanumeric unicode c && (isWhitespace c || !isControl c)

/-- A listed word in any case, a value that alone is read as one, or punctuation or blank. -/
def Piece.isGeneric : Piece → Bool
  | .word text => genericWords.contains (toAsciiLowercase text)
  | .value placeholder text => volatileAt text == some (placeholder, text.length)
  | .separator c => isSeparatorChar unicode c

def separated : List Piece → Bool
  | p :: q :: pieces => (p.isSeparator || q.isSeparator) && separated (q :: pieces)
  | _ => true

/-- A message made of listed words, punctuation, blanks and volatile values only. -/
def GenericText (s : Text) : Prop :=
  ∃ pieces : List Piece, pieces.all (Piece.isGeneric unicode) = true ∧
    separated pieces = true ∧ messageText pieces = s

/-- The piece is read whole where `following` comes after it. -/
def Piece.readsBefore (following : Text) : Piece → Bool
  | .word text => genericWords.contains (toAsciiLowercase text) &&
      following.head?.all (!isAlphanumeric unicode ·)
  | .value placeholder text => volatileAt (text ++ following) == some (placeholder, text.length)
  | .separator c => isSeparatorChar unicode c

/-- The pieces are read whole from left to right, with `rest` after them. -/
def readsWhole : List Piece → Text → Bool
  | [], _ => true
  | p :: pieces, rest =>
    p.readsBefore unicode (messageText pieces ++ rest) && readsWhole pieces rest

end Generic

def templateStep (output : Text) : Piece → Text
  | .word text =>
    output ++ if toAsciiLowercase text = d3d then "d<number>d".toList else toAsciiLowercase text
  | .value placeholder _ => pushTemplate output placeholder
  | .separator c => templateChar output c

/-- The template of pieces that are read whole, after `output`. -/
def templateFrom (output : Text) (pieces : List Piece) : Text := pieces.foldl templateStep output

section Reading

theorem hexDigits_take {count : Nat} {s rest : Text} (h : hexDigits count s = some rest) :
    count ≤ s.length ∧ ∀ c ∈ s.take count, isAsciiHexdigit c = true := by
  induction count generalizing s with
  | zero => exact ⟨Nat.zero_le _, nofun⟩
  | succ count ih =>
    cases s with
    | nil => cases h
    | cons c s =>
      unfold hexDigits at h
      split_ifs at h with hc
      obtain ⟨hlength, hall⟩ := ih h
      refine ⟨Nat.succ_le_succ hlength, ?_⟩
      rw [List.take_succ_cons, List.forall_mem_cons]
      exact ⟨hc, hall⟩

theorem hexDigits_of_guidEnd {s : Text} {length : Nat} (h : guidEnd s = some length) :
    ∃ rest, hexDigits 8 s = some rest := by
  unfold guidEnd at h
  split_ifs at h with hgroups
  unfold guidGroups at hgroups
  cases hdigits : hexDigits 8 s with
  | none => simp [hdigits] at hgroups
  | some rest => exact ⟨rest, rfl⟩

theorem guidEnd_eq_none {s : Text} (h : s.length < 8 ∨ ∃ c ∈ s.take 8, isAsciiHexdigit c = false) :
    guidEnd s = none := by
  by_contra hsome
  obtain ⟨length, hlength⟩ := Option.ne_none_iff_exists'.mp hsome
  obtain ⟨rest, hrest⟩ := hexDigits_of_guidEnd hlength
  obtain ⟨hle, hall⟩ := hexDigits_take hrest
  rcases h with hshort | ⟨c, hc, hhex⟩
  · omega
  · rw [hall c hc] at hhex
    cases hhex

theorem isAlphanumeric_of_hex (unicode : Char → Bool) {c : Char} (h : isAsciiHexdigit c = true) :
    isAlphanumeric unicode c = true := by
  simp only [isAsciiHexdigit, isAsciiDigit, Bool.or_eq_true, Bool.and_eq_true,
    decide_eq_true_eq] at h
  have hascii : c.toNat < 0x80 := by omega
  rw [isAlphanumeric, if_pos hascii]
  simp only [isAsciiAlphanumeric, isAsciiDigit, Bool.or_eq_true, Bool.and_eq_true,
    decide_eq_true_eq]
  omega

/-- No GUID begins within a short run that ends before the eighth digit. -/
theorem guidEnd_short {unicode : Char → Bool} {s following : Text} (hlength : s.length < 8)
    (hnext : following.head?.all (!isAlphanumeric unicode ·) = true) :
    guidEnd (s ++ following) = none := by
  apply guidEnd_eq_none
  cases following with
  | nil => exact .inl (by simpa using hlength)
  | cons c following =>
    have hc : isAlphanumeric unicode c = false := by simpa using hnext
    refine .inr ⟨c, ?_, ?_⟩
    · rw [List.take_append, List.mem_append]
      right
      obtain ⟨k, hk⟩ : ∃ k, 8 - s.length = k + 1 := ⟨8 - s.length - 1, by omega⟩
      rw [hk, List.take_succ_cons]
      exact List.mem_cons_self
    · by_contra hhex
      rw [isAlphanumeric_of_hex unicode (by simpa using hhex)] at hc
      cases hc

/-- At a character that is no digit, nothing but a GUID can be read. -/
theorem volatileAt_nondigit {c : Char} (hc : isAsciiDigit c = false) {s : Text}
    (hguid : guidEnd (c :: s) = none) : volatileAt (c :: s) = none := by
  have htime : timestampEnd (c :: s) = none := by
    simp [timestampEnd, datePattern, startsWithPattern, hc]
  have haddress : addressEnd (c :: s) = none := by
    unfold addressEnd
    split
    · next heq =>
      cases heq
      cases hc
    · rfl
  unfold volatileAt
  rw [hguid, htime, haddress]
  simp [startsWithPattern, hc]

theorem templateLoop_value {text following placeholder output : Text}
    (h : volatileAt (text ++ following) = some (placeholder, text.length)) (hne : text ≠ []) :
    templateLoop (text ++ following) 0 output =
      templateLoop following 0 (pushTemplate output placeholder) := by
  have hskip : ∀ (s : Text), templateLoop (s ++ following) s.length
      (pushTemplate output placeholder) =
        templateLoop following 0 (pushTemplate output placeholder) := by
    intro s
    induction s with
    | nil => rfl
    | cons c s ih => exact ih
  cases text with
  | nil => exact absurd rfl hne
  | cons c text =>
    rw [List.cons_append] at h ⊢
    rw [templateLoop, h]
    exact hskip text

theorem templateLoop_letter {c : Char} {s output : Text} (hc : isLowerLetter c.toLower = true)
    (hguid : guidEnd (c :: s) = none) :
    templateLoop (c :: s) 0 output = templateLoop s 0 (output ++ [c.toLower]) := by
  obtain ⟨hdigit, hspace, hcontrol⟩ := letter_tests hc
  rw [templateLoop, volatileAt_nondigit hdigit hguid]
  simp [templateChar, hspace, hcontrol]

theorem templateLoop_letters {text following output : Text}
    (hletters : ∀ c ∈ text, isLowerLetter c.toLower = true)
    (hguid : ∀ s, s ≠ [] → s <:+ text → guidEnd (s ++ following) = none) :
    templateLoop (text ++ following) 0 output =
      templateLoop following 0 (output ++ toAsciiLowercase text) := by
  induction text generalizing output with
  | nil => rw [toAsciiLowercase, List.map_nil, List.append_nil, List.nil_append]
  | cons c text ih =>
    have hc := hguid (c :: text) (List.cons_ne_nil _ _) List.suffix_rfl
    rw [List.cons_append] at hc ⊢
    rw [templateLoop_letter (hletters c List.mem_cons_self) hc,
      ih (fun d hd => hletters d (List.mem_cons_of_mem _ hd)) fun s hs hsuffix =>
        hguid s hs (hsuffix.trans (List.suffix_cons _ _)),
      List.append_assoc]
    rfl

theorem listed_letters : ∀ w ∈ genericWords, w ≠ d3d → w.all isLowerLetter = true := by decide

theorem listed_not_hex : ∀ w ∈ genericWords, ∀ s ∈ w.tails, 8 ≤ s.length →
    (s.take 8).all isAsciiHexdigit = false := by decide

theorem guidEnd_listed {unicode : Char → Bool} {text s following : Text}
    (hlisted : toAsciiLowercase text ∈ genericWords) (hs : s <:+ text)
    (hnext : following.head?.all (!isAlphanumeric unicode ·) = true) :
    guidEnd (s ++ following) = none := by
  by_cases hlength : s.length < 8
  · exact guidEnd_short hlength hnext
  · have htail : toAsciiLowercase s ∈ (toAsciiLowercase text).tails :=
      (List.mem_tails _ _).mpr (hs.map _)
    have hhex := listed_not_hex _ hlisted _ htail (by simpa [toAsciiLowercase] using hlength)
    rw [toAsciiLowercase, ← List.map_take, List.all_map, List.all_eq_false] at hhex
    obtain ⟨c, hc, hfalse⟩ := hhex
    apply guidEnd_eq_none
    refine .inr ⟨c, ?_, ?_⟩
    · rw [List.take_append_of_le_length (by omega)]
      exact hc
    · rw [← isAsciiHexdigit_toLower]
      simpa using hfalse

theorem toLower_eq_digit {c : Char} (h : c.toLower = '3') : c = '3' := by
  have hnat := congrArg Char.toNat h
  rw [toLower_toNat] at hnat
  apply Char.toNat_inj.mp
  split_ifs at hnat with hcase
  · change c.toNat + 32 = 51 at hnat
    omega
  · exact hnat

theorem text_of_d3d {text : Text} (h : toAsciiLowercase text = d3d) :
    ∃ c e, text = [c, '3', e] ∧ c.toLower = 'd' ∧ e.toLower = 'd' := by
  have hlength : text.length = 3 := by
    rw [← List.length_map (f := Char.toLower)]
    exact congrArg List.length h
  obtain ⟨c, d, e, rfl⟩ := List.length_eq_three.mp hlength
  change [c.toLower, d.toLower, e.toLower] = ['d', '3', 'd'] at h
  simp only [List.cons.injEq, and_true] at h
  exact ⟨c, e, by rw [toLower_eq_digit h.2.1], h.1, h.2.2⟩

theorem endsWith_append_singleton (output : Text) {placeholder : Text} {c last : Char}
    (hplaceholder : placeholder.getLast? = some last) (hne : c ≠ last) :
    endsWith placeholder (output ++ [c]) = false := by
  by_contra h
  rw [Bool.not_eq_false, endsWith, List.isSuffixOf_iff_suffix] at h
  obtain ⟨s, hs⟩ := h
  have hlast := congrArg List.getLast? hs
  rw [List.getLast?_append, hplaceholder, List.getLast?_concat] at hlast
  exact hne (Option.some.inj hlast).symm

theorem templateLoop_d3d {unicode : Char → Bool} {text following output : Text}
    (htext : toAsciiLowercase text = d3d)
    (hnext : following.head?.all (!isAlphanumeric unicode ·) = true) :
    templateLoop (text ++ following) 0 output =
      templateLoop following 0 (output ++ "d<number>d".toList) := by
  obtain ⟨c, e, rfl, hc, he⟩ := text_of_d3d htext
  have hcl : isLowerLetter c.toLower = true := by rw [hc]; rfl
  have hel : isLowerLetter e.toLower = true := by rw [he]; rfl
  have hed := (letter_tests hel).1
  have hguid : ∀ s, s <:+ [c, '3', e] → guidEnd (s ++ following) = none := fun s hs =>
    guidEnd_short (lt_of_le_of_lt hs.length_le (by simp)) hnext
  have hthree : volatileAt ('3' :: e :: following) = some ("<number>".toList, 1) := by
    have hg : guidEnd ('3' :: e :: following) = none := hguid ['3', e] (List.suffix_cons _ _)
    have ht : timestampEnd ('3' :: e :: following) = none := by
      simp [timestampEnd, datePattern, startsWithPattern, hed]
    have ha : addressEnd ('3' :: e :: following) = none := by
      unfold addressEnd
      split
      · next heq => cases heq
      · rfl
    unfold volatileAt
    rw [hg, ht, ha]
    simp [startsWithPattern, hed, show isAsciiDigit '3' = true from rfl]
  have hpush : pushTemplate (output ++ ['d']) "<number>".toList =
      output ++ ['d'] ++ "<number>".toList := by
    rw [pushTemplate, endsWith_append_singleton output (by rfl) (by decide : 'd' ≠ '>')]
    rfl
  have hc' : guidEnd (c :: '3' :: e :: following) = none := hguid [c, '3', e] List.suffix_rfl
  have he' : guidEnd (e :: following) = none := hguid [e] ⟨[c, '3'], rfl⟩
  have hloop : templateLoop (['3'] ++ e :: following) 0 (output ++ ['d']) =
      templateLoop (e :: following) 0 (pushTemplate (output ++ ['d']) "<number>".toList) :=
    templateLoop_value hthree (List.cons_ne_nil _ _)
  change templateLoop (c :: '3' :: e :: following) 0 output = _
  rw [templateLoop_letter hcl hc', hc]
  refine hloop.trans ?_
  rw [templateLoop_letter hel he', he, hpush]
  simp

def placeholders : List Text := ["<guid>", "<timestamp>", "<address>", "<number>"].map String.toList

theorem volatileAt_some {s placeholder : Text} {length : Nat}
    (h : volatileAt s = some (placeholder, length)) : placeholder ∈ placeholders ∧ 0 < length := by
  unfold volatileAt at h
  split at h
  · next hguid =>
    unfold guidEnd at hguid
    split_ifs at hguid
    cases hguid
    cases h
    exact ⟨by decide, by decide⟩
  · split at h
    · next htime =>
      unfold timestampEnd at htime
      split_ifs at htime
      cases htime
      cases h
      exact ⟨by decide, by omega⟩
    · split at h
      · next haddress =>
        unfold addressEnd at haddress
        split at haddress
        · split_ifs at haddress
          cases haddress
          cases h
          exact ⟨by decide, by omega⟩
        · cases haddress
      · split_ifs at h with hdigit
        cases h
        refine ⟨by decide, ?_⟩
        cases s with
        | nil => cases hdigit
        | cons c s =>
          have hc : isAsciiDigit c = true := by simpa [startsWithPattern] using hdigit
          simp [hc]

theorem volatileAt_separator {unicode : Char → Bool} {c : Char}
    (hc : isAlphanumeric unicode c = false) (following : Text) :
    volatileAt (c :: following) = none := by
  have hhex : isAsciiHexdigit c = false := by
    by_contra hhex
    rw [isAlphanumeric_of_hex unicode (by simpa using hhex)] at hc
    cases hc
  have hdigit : isAsciiDigit c = false := by
    unfold isAsciiHexdigit at hhex
    simp only [Bool.or_eq_false_iff] at hhex
    exact hhex.1.1
  exact volatileAt_nondigit hdigit (guidEnd_eq_none (.inr ⟨c, List.mem_cons_self, hhex⟩))

/-- The template loop goes through a piece that it reads whole. -/
theorem templateLoop_piece {unicode : Char → Bool} {p : Piece} {following output : Text}
    (h : p.readsBefore unicode following = true) :
    templateLoop (p.text ++ following) 0 output =
      templateLoop following 0 (templateStep output p) := by
  cases p with
  | word text =>
    simp only [Piece.readsBefore, Bool.and_eq_true, List.contains_iff_mem] at h
    obtain ⟨hlisted, hnext⟩ := h
    by_cases hd : toAsciiLowercase text = d3d
    · simpa [templateStep, hd, Piece.text] using templateLoop_d3d hd hnext
    · have hletters : ∀ c ∈ text, isLowerLetter c.toLower = true := by
        have hall := listed_letters _ hlisted hd
        rw [toAsciiLowercase, List.all_map, List.all_eq_true] at hall
        exact hall
      simpa [templateStep, hd, Piece.text] using
        templateLoop_letters hletters fun s _ hs => guidEnd_listed hlisted hs hnext
  | value placeholder text =>
    have hvalue : volatileAt (text ++ following) = some (placeholder, text.length) := by
      simpa [Piece.readsBefore] using h
    have hne : text ≠ [] := List.length_pos_iff.mp (volatileAt_some hvalue).2
    exact templateLoop_value hvalue hne
  | separator c =>
    simp only [Piece.readsBefore, isSeparatorChar, Bool.and_eq_true, Bool.not_eq_true'] at h
    change templateLoop (c :: following) 0 output = _
    rw [templateLoop, volatileAt_separator h.1]
    rfl

theorem templateLoop_pieces {unicode : Char → Bool} {pieces : List Piece} {rest output : Text}
    (h : readsWhole unicode pieces rest = true) :
    templateLoop (messageText pieces ++ rest) 0 output =
      templateLoop rest 0 (templateFrom output pieces) := by
  induction pieces generalizing output with
  | nil => rfl
  | cons p pieces ih =>
    rw [readsWhole, Bool.and_eq_true] at h
    rw [messageText, List.flatMap_cons, List.append_assoc]
    exact (templateLoop_piece h.1).trans (ih h.2)

end Reading

section Tokens
variable {unicode : Char → Bool}

/-- A character that is not alphanumeric parts the tokens before and after it. -/
theorem hasSpecificTemplateToken_append {c : Char} (hc : isAlphanumeric unicode c = false)
    (s t : Text) : hasSpecificTemplateToken unicode (s ++ c :: t) =
      (hasSpecificTemplateToken unicode s || hasSpecificTemplateToken unicode t) := by
  unfold hasSpecificTemplateToken
  rw [split_append _ s t (by rw [hc]; rfl), List.filter_append, List.any_append]

theorem hasSpecificTemplateToken_concat {c : Char} (hc : isAlphanumeric unicode c = false)
    (s : Text) : hasSpecificTemplateToken unicode (s ++ [c]) =
      hasSpecificTemplateToken unicode s := by
  rw [hasSpecificTemplateToken_append hc]
  exact Bool.or_false _

/-- The Unicode table plays no part in an ASCII text. -/
theorem hasSpecificTemplateToken_ascii {s : Text} (h : s.all (·.toNat < 0x80) = true) :
    hasSpecificTemplateToken unicode s = hasSpecificTemplateToken (fun _ => false) s := by
  unfold hasSpecificTemplateToken
  rw [split_congr fun c hc => ?_]
  have hascii : c.toNat < 0x80 := by simpa using List.all_eq_true.mp h c hc
  rw [isAlphanumeric, isAlphanumeric, if_pos hascii, if_pos hascii]

/-- The text does not end within a token. -/
def Closed (unicode : Char → Bool) (s : Text) : Prop :=
  ∀ c ∈ s.getLast?, isAlphanumeric unicode c = false

theorem closed_concat (s : Text) {c : Char} (hc : isAlphanumeric unicode c = false) :
    Closed unicode (s ++ [c]) := by
  intro d hd
  rw [List.getLast?_concat] at hd
  cases hd
  exact hc

theorem hasSpecificTemplateToken_closed {s : Text} (hs : Closed unicode s) (t : Text) :
    hasSpecificTemplateToken unicode (s ++ t) =
      (hasSpecificTemplateToken unicode s || hasSpecificTemplateToken unicode t) := by
  rcases List.eq_nil_or_concat' s with rfl | ⟨init, c, rfl⟩
  · rfl
  · have hc : isAlphanumeric unicode c = false := hs c List.getLast?_concat
    rw [hasSpecificTemplateToken_concat hc, List.append_assoc, List.singleton_append,
      hasSpecificTemplateToken_append hc]

theorem listed_not_specific {w : Text} (hw : w ∈ genericWords) :
    hasSpecificTemplateToken unicode w = false := by
  have hall : ∀ w ∈ genericWords, w.all (·.toNat < 0x80) = true ∧
      hasSpecificTemplateToken (fun _ => false) w = false := by decide
  rw [hasSpecificTemplateToken_ascii (hall w hw).1, (hall w hw).2]

theorem d3d_specific : hasSpecificTemplateToken unicode "d<number>d".toList = true := by
  rw [hasSpecificTemplateToken_ascii (by decide)]
  decide

theorem placeholder_not_specific {placeholder : Text} (h : placeholder ∈ placeholders) :
    ∃ name, placeholder = '<' :: name ++ ['>'] ∧
      hasSpecificTemplateToken unicode (name ++ ['>']) = false := by
  have hall : ∀ p ∈ placeholders, p = '<' :: (p.tail.dropLast) ++ ['>'] ∧
      (p.tail.dropLast ++ ['>']).all (·.toNat < 0x80) = true ∧
      hasSpecificTemplateToken (fun _ => false) (p.tail.dropLast ++ ['>']) = false := by decide
  obtain ⟨hshape, hascii, hspecific⟩ := hall placeholder h
  refine ⟨_, hshape, ?_⟩
  rw [hasSpecificTemplateToken_ascii hascii, hspecific]

theorem angle_not_alphanumeric : isAlphanumeric unicode '<' = false ∧
    isAlphanumeric unicode '>' = false ∧ isAlphanumeric unicode ' ' = false := ⟨rfl, rfl, rfl⟩

theorem pushTemplate_tokens {output placeholder : Text} (h : placeholder ∈ placeholders) :
    hasSpecificTemplateToken unicode (pushTemplate output placeholder) =
        hasSpecificTemplateToken unicode output ∧
      Closed unicode (pushTemplate output placeholder) := by
  obtain ⟨name, rfl, hname⟩ := @placeholder_not_specific unicode placeholder h
  unfold pushTemplate
  split_ifs with hends
  · refine ⟨rfl, ?_⟩
    obtain ⟨s, hs⟩ := List.isSuffixOf_iff_suffix.mp hends
    rw [← hs, ← List.append_assoc]
    exact closed_concat _ angle_not_alphanumeric.2.1
  · constructor
    · rw [List.cons_append, hasSpecificTemplateToken_append angle_not_alphanumeric.1, hname,
        Bool.or_false]
    · rw [← List.append_assoc]
      exact closed_concat _ angle_not_alphanumeric.2.1

theorem templateChar_tokens {output : Text} {c : Char} (h : isSeparatorChar unicode c = true) :
    hasSpecificTemplateToken unicode (templateChar output c) =
        hasSpecificTemplateToken unicode output ∧
      Closed unicode (templateChar output c) := by
  simp only [isSeparatorChar, Bool.and_eq_true, Bool.not_eq_true', Bool.or_eq_true] at h
  obtain ⟨hc, hseparator⟩ := h
  have hspace := @angle_not_alphanumeric unicode
  unfold templateChar
  split_ifs with hwhite hpush hcontrol
  · exact ⟨hasSpecificTemplateToken_concat hspace.2.2 _, closed_concat _ hspace.2.2⟩
  · refine ⟨rfl, ?_⟩
    rcases List.eq_nil_or_concat' output with rfl | ⟨init, d, rfl⟩
    · nofun
    · have hd : d = ' ' := by
        by_contra hne
        have hends : endsWith [' '] (init ++ [d]) = false := endsWith_append_singleton init rfl hne
        simp [hends] at hpush
      rw [hd]
      exact closed_concat _ hspace.2.2
  · simp [hwhite, hcontrol] at hseparator
  · have hlower := (isAlphanumeric_toLower unicode c).trans hc
    exact ⟨hasSpecificTemplateToken_concat hlower _, closed_concat _ hlower⟩

end Tokens

section Templates
variable {unicode : Char → Bool}

theorem alphanumeric_of_lower {c : Char} (h : isLowerLetter c.toLower = true) :
    isAlphanumeric unicode c = true := by
  simp only [isLowerLetter, Bool.and_eq_true, decide_eq_true_eq] at h
  have hascii : c.toLower.toNat < 0x80 := by omega
  rw [← isAlphanumeric_toLower, isAlphanumeric, if_pos hascii]
  simp only [isAsciiAlphanumeric, Bool.or_eq_true, Bool.and_eq_true, decide_eq_true_eq]
  exact .inr h

theorem head_of_listed {text : Text} (h : toAsciiLowercase text ∈ genericWords) :
    ∃ c rest, text = c :: rest ∧ isAlphanumeric unicode c = true := by
  have hall : genericWords.all (fun w => w.head?.any isLowerLetter) = true := by decide
  have hlower := List.all_eq_true.mp hall _ h
  cases text with
  | nil => cases hlower
  | cons d rest => exact ⟨d, rest, rfl, alphanumeric_of_lower hlower⟩

theorem word_tokens {output text : Text} (houtput : Closed unicode output)
    (hlisted : toAsciiLowercase text ∈ genericWords) :
    hasSpecificTemplateToken unicode (templateStep output (.word text)) =
      (hasSpecificTemplateToken unicode output || (Piece.word text).isD3d) := by
  unfold templateStep
  rw [hasSpecificTemplateToken_closed houtput]
  by_cases hd : toAsciiLowercase text = d3d
  · rw [if_pos hd, d3d_specific]
    simp [Piece.isD3d, hd]
  · rw [if_neg hd, listed_not_specific hlisted]
    simp [Piece.isD3d, hd]

/-- Of pieces that are read whole, only `d3d` leaves a token that is not listed. -/
theorem templateFrom_tokens {pieces : List Piece} {rest output : Text}
    (h : readsWhole unicode pieces rest = true)
    (houtput : Closed unicode output ∨
      (messageText pieces ++ rest).head?.all (!isAlphanumeric unicode ·) = true) :
    hasSpecificTemplateToken unicode (templateFrom output pieces) =
      (hasSpecificTemplateToken unicode output || pieces.any Piece.isD3d) := by
  induction pieces generalizing output with
  | nil => exact (Bool.or_false _).symm
  | cons p pieces ih =>
    rw [readsWhole, Bool.and_eq_true] at h
    obtain ⟨hp, hrest⟩ := h
    rw [templateFrom, List.foldl_cons, List.any_cons]
    cases p with
    | word text =>
      simp only [Piece.readsBefore, Bool.and_eq_true, List.contains_iff_mem] at hp
      obtain ⟨c, tail, htext, hc⟩ := @head_of_listed unicode text hp.1
      have hclosed : Closed unicode output := by
        refine houtput.resolve_right fun hnext => ?_
        simp [messageText, Piece.text, htext, hc] at hnext
      refine (ih hrest (.inr hp.2)).trans ?_
      rw [word_tokens hclosed hp.1, Bool.or_assoc]
    | value placeholder text =>
      have hvalue : volatileAt (text ++ (messageText pieces ++ rest)) =
          some (placeholder, text.length) := by
        simpa [Piece.readsBefore] using hp
      obtain ⟨htokens, hclosed⟩ :=
        @pushTemplate_tokens unicode output _ (volatileAt_some hvalue).1
      refine (ih hrest (.inl hclosed)).trans ?_
      rw [htokens]
      rfl
    | separator c =>
      obtain ⟨htokens, hclosed⟩ := @templateChar_tokens unicode output c hp
      refine (ih hrest (.inl hclosed)).trans ?_
      rw [htokens]
      rfl

/-- The only white space is blanks, and none comes first. -/
structure Tidy (s : Text) : Prop where
  first : ∀ c ∈ s.head?, isWhitespace c = false
  blanks : ∀ c ∈ s, isWhitespace c = true → c = ' '

theorem Tidy.append {s t : Text} (hs : Tidy s) (ht : ∀ c ∈ t, isWhitespace c = false) :
    Tidy (s ++ t) where
  first := by
    cases s with
    | nil => exact fun c hc => ht c (List.mem_of_mem_head? hc)
    | cons d s => exact hs.first
  blanks c hc hwhite := by
    rcases List.mem_append.mp hc with hc | hc
    · exact hs.blanks c hc hwhite
    · rw [ht c hc] at hwhite
      cases hwhite

theorem Tidy.pushTemplate {output placeholder : Text} (h : Tidy output)
    (hplaceholder : placeholder ∈ placeholders) : Tidy (pushTemplate output placeholder) := by
  have hall : placeholders.all (fun p => p.all fun c => !isWhitespace c) = true := by decide
  have hblank := List.all_eq_true.mp (List.all_eq_true.mp hall placeholder hplaceholder)
  unfold GroupingText.pushTemplate
  split_ifs
  · exact h
  · exact h.append fun c hc => Bool.not_eq_true' _ ▸ hblank c hc

theorem Tidy.templateChar {output : Text} (h : Tidy output) (c : Char) :
    Tidy (templateChar output c) := by
  unfold GroupingText.templateChar
  split_ifs with hwhite hpush
  · simp only [Bool.and_eq_true, Bool.not_eq_true', List.isEmpty_eq_false_iff] at hpush
    constructor
    · intro d hd
      rw [List.head?_append_of_ne_nil _ hpush.1] at hd
      exact h.first d hd
    · intro d hd hspace
      rcases List.mem_append.mp hd with hd | hd
      · exact h.blanks d hd hspace
      · exact List.mem_singleton.mp hd
  · exact h
  · exact h
  · refine h.append fun d hd => ?_
    rw [List.mem_singleton.mp hd, isWhitespace_toLower]
    simpa using hwhite

theorem templateLoop_tidy {s output : Text} {skip : Nat} (h : Tidy output) :
    Tidy (templateLoop s skip output) := by
  induction s generalizing skip output with
  | nil => exact h
  | cons c s ih =>
    cases skip with
    | succ skip => exact ih h
    | zero =>
      unfold templateLoop
      split
      · next heq => exact ih (h.pushTemplate (volatileAt_some heq).1)
      · exact ih (h.templateChar c)

theorem templateLoop_extends (s output : Text) (skip : Nat) :
    output <+: templateLoop s skip output := by
  have hpush : ∀ output placeholder, output <+: pushTemplate output placeholder := by
    intro output placeholder
    unfold pushTemplate
    split_ifs
    · exact List.prefix_rfl
    · exact List.prefix_append _ _
  have hchar : ∀ output c, output <+: templateChar output c := by
    intro output c
    unfold templateChar
    split_ifs <;> first | exact List.prefix_rfl | exact List.prefix_append _ _
  induction s generalizing skip output with
  | nil => exact List.prefix_rfl
  | cons c s ih =>
    cases skip with
    | succ skip => exact ih output skip
    | zero =>
      unfold templateLoop
      split
      · exact (hpush _ _).trans (ih _ _)
      · exact (hchar _ _).trans (ih _ _)

/-- Trimming takes away blanks at the end only. -/
theorem Tidy.trim_append {s : Text} (h : Tidy s) :
    ∃ blanks, s = trim s ++ blanks ∧ ∀ c ∈ blanks, c = ' ' := by
  have hstart : trimStart s = s := by
    cases s with
    | nil => rfl
    | cons c s => simp [trimStart, h.first c rfl]
  refine ⟨(s.reverse.takeWhile isWhitespace).reverse, ?_, fun c hc => ?_⟩
  · rw [RustText.trim, hstart, trimEnd, ← List.reverse_append, List.takeWhile_append_dropWhile,
      List.reverse_reverse]
  · rw [List.mem_reverse] at hc
    have hs : c ∈ s := List.mem_reverse.mp ((List.takeWhile_prefix _).subset hc)
    exact h.blanks c hs (List.all_eq_true.mp List.all_takeWhile c hc)

theorem hasSpecificTemplateToken_blanks (s : Text) {blanks : Text} (h : ∀ c ∈ blanks, c = ' ') :
    hasSpecificTemplateToken unicode (s ++ blanks) = hasSpecificTemplateToken unicode s := by
  induction blanks generalizing s with
  | nil => rw [List.append_nil]
  | cons c blanks ih =>
    have hc : isAlphanumeric unicode c = false := by
      rw [h c List.mem_cons_self]
      rfl
    have hcons : s ++ c :: blanks = (s ++ [c]) ++ blanks := by simp
    rw [hcons, ih _ fun d hd => h d (List.mem_cons_of_mem _ hd),
      hasSpecificTemplateToken_concat hc]

/-- Whether a text is trimmed before it is cut or not, its tokens are the same. -/
theorem Tidy.bounded_trim {s : Text} (h : Tidy s) (maximum : Nat) :
    hasSpecificTemplateToken unicode (bounded (trim s) maximum) =
      hasSpecificTemplateToken unicode (bounded s maximum) := by
  obtain ⟨blanks, hs, hblanks⟩ := h.trim_append
  have hcut : bounded s maximum =
      bounded (trim s) maximum ++ blanks.take (maximum - (trim s).length) := by
    unfold bounded
    conv_lhs => rw [hs]
    exact List.take_append
  rw [hcut, hasSpecificTemplateToken_blanks _ fun c hc => hblanks c (List.mem_of_mem_take hc)]

end Templates

/-- The part of a message that its template keeps, read whole: the message is cut behind
`rest`, and the template behind the template of `kept`. -/
structure Reading (unicode : Char → Bool) (s : Text) where
  kept : List Piece
  rest : Text
  text_eq : bounded s maxErrorInputChars = messageText kept ++ rest
  whole : readsWhole unicode kept rest = true
  cut : (rest = [] ∧ (templateFrom [] kept).length ≤ maxErrorTemplateChars) ∨
    (templateFrom [] kept).length = maxErrorTemplateChars

/-- A message read whole is specific exactly when `d3d` is in the kept part. -/
theorem Reading.specific_iff {unicode : Char → Bool} {s : Text} (r : Reading unicode s) :
    hasSpecificTemplateToken unicode (normalizeTemplate s) = r.kept.any Piece.isD3d := by
  have hempty : Tidy [] := ⟨nofun, nofun⟩
  have hloop : templateLoop (bounded s maxErrorInputChars) 0 [] =
      templateLoop r.rest 0 (templateFrom [] r.kept) := by
    rw [r.text_eq]
    exact templateLoop_pieces r.whole
  have htidy : Tidy (templateLoop (bounded s maxErrorInputChars) 0 []) := templateLoop_tidy hempty
  have hcut : bounded (templateLoop r.rest 0 (templateFrom [] r.kept)) maxErrorTemplateChars =
      templateFrom [] r.kept := by
    rcases r.cut with ⟨hrest, hlength⟩ | hlength
    · rw [hrest]
      exact List.take_of_length_le hlength
    · rw [bounded, ← hlength]
      exact (List.prefix_iff_eq_take.mp (templateLoop_extends _ _ _)).symm
  have hclosed : Closed unicode [] := nofun
  rw [normalizeTemplate, htidy.bounded_trim, hloop, hcut,
    templateFrom_tokens r.whole (.inl hclosed)]
  exact Bool.false_or _

end FaultLane.GroupingTemplate
