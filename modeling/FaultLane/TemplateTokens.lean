import FaultLane.GroupingTemplate
import Mathlib.Data.List.TakeWhile

set_option autoImplicit false

/-!
# Volatile tokens of a message

A token that is one volatile value from its first character to its last, and how the
template loop reads it between blanks.
-/
namespace FaultLane.TemplateTokens
open RustText GroupingText GroupingTemplate

inductive Volatile where
  | number
  | address
  | guid
  | timestamp
  deriving DecidableEq, Repr

def Volatile.placeholder : Volatile → Text
  | .number => "<number>".toList
  | .address => "<address>".toList
  | .guid => "<guid>".toList
  | .timestamp => "<timestamp>".toList

/-- `hh:mm:ssZ`, what an ISO timestamp has behind its `T`. -/
def clockPattern : List (Char → Bool) :=
  [isAsciiDigit, isAsciiDigit, (· == ':'), isAsciiDigit, isAsciiDigit, (· == ':'),
    isAsciiDigit, isAsciiDigit, (· == 'Z')]

def isAddressToken : Text → Bool
  | '0' :: 'x' :: digits => !digits.isEmpty && digits.all isAsciiHexdigit
  | _ => false

/-- The text is a date and nothing else. -/
def isDate (s : Text) : Bool := startsWithPattern datePattern s && s.length == 10

def isTimestampToken (token : Text) : Bool :=
  token.length == 20 && isDate (token.take 10) &&
    (token.drop 10).head? == some 'T' && startsWithPattern clockPattern (token.drop 11)

/-- The token is entirely one value of the kind. -/
def Volatile.matches : Volatile → Text → Bool
  | .number, token => !token.isEmpty && token.all isAsciiDigit
  | .address, token => isAddressToken token
  | .guid, token => token.length == 36 && guidGroups [8, 4, 4, 4, 12] token
  | .timestamp, token => isTimestampToken token

section Patterns

/-- Nothing follows, or white space does. -/
def Stops (after : Text) : Prop := ∀ c ∈ after.head?, isWhitespace c = true

theorem whitespace_tests {c : Char} (h : isWhitespace c = true) :
    isAsciiDigit c = false ∧ isAsciiHexdigit c = false ∧ isTimestampChar c = false ∧
      c ≠ '-' ∧ c ≠ 'x' ∧ c ≠ 'X' ∧ c ≠ 'T' ∧ c ≠ 't' := by
  have hne : ∀ d : Char, isWhitespace d = false → c ≠ d := by
    rintro d hd rfl
    rw [h] at hd
    cases hd
  have hhex : isAsciiHexdigit c = false := by
    simp only [isWhitespace, isAsciiHexdigit, isAsciiDigit, ← Bool.not_eq_true, Bool.or_eq_true,
      Bool.and_eq_true, decide_eq_true_eq, beq_iff_eq] at h ⊢
    omega
  have hdigit : isAsciiDigit c = false := by
    simp only [isAsciiHexdigit, Bool.or_eq_false_iff] at hhex
    exact hhex.1.1
  refine ⟨hdigit, hhex, ?_, hne _ rfl, hne _ rfl, hne _ rfl, hne _ rfl, hne _ rfl⟩
  simp only [isTimestampChar, hdigit, Bool.false_or, List.contains_eq_mem, decide_eq_false_iff_not]
  intro hmem
  have hall : ":.+-Zz".toList.all (fun d => !isWhitespace d) = true := by decide
  have hc := List.all_eq_true.mp hall c hmem
  rw [h] at hc
  cases hc

theorem hexDigits_drop {count : Nat} {s rest : Text} (h : hexDigits count s = some rest) :
    rest = s.drop count := by
  induction count generalizing s with
  | zero =>
    cases h
    rfl
  | succ count ih =>
    cases s with
    | nil => cases h
    | cons c s =>
      unfold hexDigits at h
      split_ifs at h
      exact ih h

theorem hexDigits_stops {after : Text} (h : Stops after) (count : Nat) (s : Text) :
    hexDigits count (s ++ after) = (hexDigits count s).map (· ++ after) := by
  induction count generalizing s with
  | zero => rfl
  | succ count ih =>
    cases s with
    | cons c s =>
      rw [List.cons_append, hexDigits, hexDigits, ih]
      split_ifs <;> rfl
    | nil =>
      cases after with
      | nil => rfl
      | cons c after =>
        have hc := (whitespace_tests (h c rfl)).2.1
        rw [List.nil_append, hexDigits, hc]
        rfl

theorem guidGroups_stops {after : Text} (h : Stops after) (groups : List Nat) (s : Text) :
    guidGroups groups (s ++ after) = guidGroups groups s := by
  induction groups, s using guidGroups.induct with
  | case1 s => rfl
  | case2 last s => rw [guidGroups, guidGroups, hexDigits_stops h, Option.isSome_map]
  | case3 length groups s hgroups rest hdigits ih =>
    rw [guidGroups, guidGroups, hexDigits_stops h, hdigits]
    · exact ih
    · exact hgroups
    · exact hgroups
  | case4 length groups s hgroups hnone =>
    rw [guidGroups, guidGroups, hexDigits_stops h]
    · cases hdigits : hexDigits length s with
      | none => rfl
      | some rest =>
        cases rest with
        | nil =>
          cases after with
          | nil => rfl
          | cons c after =>
            have hc := (whitespace_tests (h c rfl)).2.2.2.1
            simp [hc]
        | cons c rest =>
          have hc : c ≠ '-' := by
            rintro rfl
            exact hnone rest hdigits
          simp [hc]
    · exact hgroups
    · exact hgroups

theorem guidEnd_stops {after : Text} (h : Stops after) (s : Text) :
    guidEnd (s ++ after) = guidEnd s := by
  rw [guidEnd, guidEnd, guidGroups_stops h]

theorem startsWithPattern_stops {after : Text} (h : Stops after) {pattern : List (Char → Bool)}
    (hpattern : ∀ p ∈ pattern, ∀ c, isWhitespace c = true → p c = false) (s : Text) :
    startsWithPattern pattern (s ++ after) = startsWithPattern pattern s := by
  induction pattern generalizing s with
  | nil => rfl
  | cons p pattern ih =>
    cases s with
    | cons c s =>
      rw [List.cons_append, startsWithPattern, startsWithPattern,
        ih fun q hq => hpattern q (List.mem_cons_of_mem _ hq)]
    | nil =>
      cases after with
      | nil => rfl
      | cons c after =>
        rw [List.nil_append, startsWithPattern, hpattern p List.mem_cons_self c (h c rfl)]
        rfl

theorem takeWhile_stops {after : Text} (h : Stops after) {p : Char → Bool}
    (hp : ∀ c, isWhitespace c = true → p c = false) (s : Text) :
    (s ++ after).takeWhile p = s.takeWhile p := by
  induction s with
  | nil =>
    cases after with
    | nil => rfl
    | cons c after => simp [hp c (h c rfl)]
  | cons c s ih =>
    rw [List.cons_append, List.takeWhile_cons, List.takeWhile_cons, ih]

theorem startsWithPattern_mem {pattern : List (Char → Bool)} {s : Text}
    (h : startsWithPattern pattern s = true) {p : Char → Bool} (hp : p ∈ pattern) :
    ∃ c ∈ s, p c = true := by
  induction pattern generalizing s with
  | nil => cases hp
  | cons q pattern ih =>
    cases s with
    | nil => cases h
    | cons c s =>
      rw [startsWithPattern, Bool.and_eq_true] at h
      rcases List.mem_cons.mp hp with rfl | hp
      · exact ⟨c, List.mem_cons_self, h.1⟩
      · obtain ⟨d, hd, htrue⟩ := ih h.2 hp
        exact ⟨d, List.mem_cons_of_mem _ hd, htrue⟩

theorem startsWithPattern_length {pattern : List (Char → Bool)} {s : Text}
    (h : startsWithPattern pattern s = true) : pattern.length ≤ s.length := by
  induction pattern generalizing s with
  | nil => exact Nat.zero_le _
  | cons q pattern ih =>
    cases s with
    | nil => cases h
    | cons c s =>
      rw [startsWithPattern, Bool.and_eq_true] at h
      exact Nat.succ_le_succ (ih h.2)

theorem startsWithPattern_append {pattern : List (Char → Bool)} {s : Text}
    (h : startsWithPattern pattern s = true) (t : Text) :
    startsWithPattern pattern (s ++ t) = true := by
  induction pattern generalizing s with
  | nil => rfl
  | cons q pattern ih =>
    cases s with
    | nil => cases h
    | cons c s =>
      rw [startsWithPattern, Bool.and_eq_true] at h
      rw [List.cons_append, startsWithPattern, h.1, ih h.2]
      rfl

theorem datePattern_blank : ∀ p ∈ datePattern, ∀ c, isWhitespace c = true → p c = false := by
  intro p hp c hc
  have htests := whitespace_tests hc
  simp only [datePattern, List.mem_cons, List.not_mem_nil, or_false] at hp
  rcases hp with rfl | rfl | rfl | rfl | rfl | rfl | rfl | rfl | rfl | rfl
  all_goals first | exact htests.1 | simp [htests.2.2.2.1]

end Patterns

section Reading

theorem timestampEnd_stops {after : Text} (h : Stops after) {s : Text} (hdate : isDate s = false) :
    timestampEnd (s ++ after) = timestampEnd s := by
  unfold timestampEnd
  rw [startsWithPattern_stops h datePattern_blank]
  split_ifs with hstarts
  · have hlength : 10 ≤ s.length := startsWithPattern_length hstarts
    have hlonger : s.length ≠ 10 := by
      intro heq
      simp [isDate, hstarts, heq] at hdate
    rw [List.drop_append_of_le_length hlength]
    cases hdrop : s.drop 10 with
    | nil =>
      have := List.drop_eq_nil_iff.mp hdrop
      omega
    | cons c t =>
      rw [List.cons_append, timeLength, timeLength,
        takeWhile_stops h fun d hd => (whitespace_tests hd).2.2.1]
  · rfl

theorem addressEnd_cons (c d e : Char) (s : Text) : addressEnd (c :: d :: e :: s) =
    if c = '0' ∧ (d == 'x' || d == 'X') && isAsciiHexdigit e then
      some (3 + (s.takeWhile isAsciiHexdigit).length)
    else none := by
  by_cases hc : c = '0'
  · subst hc
    simp [addressEnd]
  · rw [if_neg fun h => hc h.1]
    unfold addressEnd
    split
    · next heq =>
      cases heq
      exact absurd rfl hc
    · rfl

theorem addressEnd_short {s : Text} (h : s.length < 3) : addressEnd s = none := by
  unfold addressEnd
  split
  · simp only [List.length_cons] at h
    omega
  · rfl

theorem addressEnd_stops {after : Text} (h : Stops after) (s : Text) :
    addressEnd (s ++ after) = addressEnd s := by
  cases after with
  | nil => rw [List.append_nil]
  | cons w after =>
    obtain ⟨-, hw, -, -, hx, hX, -⟩ := whitespace_tests (h w rfl)
    have hnone : ∀ d e t, addressEnd (w :: d :: t) = none ∧ addressEnd (e :: w :: t) = none ∧
        addressEnd (e :: d :: w :: t) = none := by
      intro d e t
      have hzero : w ≠ '0' := by
        rintro rfl
        cases hw
      cases t with
      | nil => exact ⟨addressEnd_short (by simp), addressEnd_short (by simp), by
          rw [addressEnd_cons]; simp [hw]⟩
      | cons f t =>
        simp only [addressEnd_cons]
        simp [hw, hx, hX, hzero]
    match s with
    | [] =>
      cases after with
      | nil => exact addressEnd_short (Nat.lt_of_sub_eq_succ rfl)
      | cons d after => exact (hnone d d after).1
    | [c] => exact (hnone c c after).2.1.trans (addressEnd_short (by simp)).symm
    | [c, d] => exact (hnone d c after).2.2.trans (addressEnd_short (by simp)).symm
    | c :: d :: e :: s =>
      simp only [List.cons_append, addressEnd_cons,
        takeWhile_stops h fun c hc => (whitespace_tests hc).2.1]

theorem volatileAt_stops {after : Text} (h : Stops after) {s : Text} (hdate : isDate s = false) :
    volatileAt (s ++ after) = volatileAt s := by
  have hdigit : ∀ p ∈ [isAsciiDigit], ∀ c, isWhitespace c = true → p c = false := by
    intro p hp c hc
    rw [List.mem_singleton.mp hp]
    exact (whitespace_tests hc).1
  unfold volatileAt
  rw [guidEnd_stops h, timestampEnd_stops h hdate, addressEnd_stops h,
    startsWithPattern_stops h hdigit, takeWhile_stops h fun c hc => (whitespace_tests hc).1]

/-- GUIDs and dates have dashes. -/
theorem no_dash {s : Text} (h : '-' ∉ s) :
    guidEnd s = none ∧ timestampEnd s = none ∧ isDate s = false := by
  have hdate : startsWithPattern datePattern s = false := by
    by_contra hstarts
    rw [Bool.not_eq_false] at hstarts
    have hmem : (· == '-') ∈ datePattern := by simp [datePattern]
    obtain ⟨c, hc, heq⟩ := startsWithPattern_mem hstarts hmem
    exact h (beq_iff_eq.mp heq ▸ hc)
  refine ⟨?_, by simp [timestampEnd, hdate], by simp [isDate, hdate]⟩
  unfold guidEnd
  split_ifs with hgroups
  · unfold guidGroups at hgroups
    split at hgroups
    · next rest hdigits =>
      have hmem : '-' ∈ s.drop 8 := by
        rw [← hexDigits_drop hdigits]
        exact List.mem_cons_self
      exact absurd (List.mem_of_mem_drop hmem) h
    · cases hgroups
  · rfl

theorem digit_ne {c d : Char} (hc : isAsciiDigit c = true) (hd : isAsciiDigit d = false) :
    c ≠ d := by
  rintro rfl
  rw [hc] at hd
  cases hd

theorem addressToken_cases {token : Text} (h : isAddressToken token = true) :
    ∃ d digits, token = '0' :: 'x' :: d :: digits ∧
      (d :: digits).all isAsciiHexdigit = true := by
  unfold isAddressToken at h
  split at h
  · next digits =>
    cases digits with
    | nil => cases h
    | cons d digits => exact ⟨d, digits, rfl, h⟩
  · cases h

theorem volatileAt_number {token : Text} (h : Volatile.number.matches token = true) :
    volatileAt token = some ("<number>".toList, token.length) ∧ isDate token = false := by
  simp only [Volatile.matches, Bool.and_eq_true, Bool.not_eq_true', List.all_eq_true] at h
  obtain ⟨hne, hdigits⟩ := h
  obtain ⟨hguid, htime, hdate⟩ := no_dash fun hmem => absurd (hdigits _ hmem) (by decide)
  have haddress : addressEnd token = none := by
    match token with
    | [] => rfl
    | [_] => exact addressEnd_short (by simp)
    | [_, _] => exact addressEnd_short (by simp)
    | c :: d :: e :: token =>
      have hd := hdigits d (by simp)
      rw [addressEnd_cons]
      simp [digit_ne hd (show isAsciiDigit 'x' = false by rfl),
        digit_ne hd (show isAsciiDigit 'X' = false by rfl)]
  have hstarts : startsWithPattern [isAsciiDigit] token = true := by
    cases token with
    | nil => cases hne
    | cons c token => simp [startsWithPattern, hdigits c List.mem_cons_self]
  refine ⟨?_, hdate⟩
  unfold volatileAt
  rw [hguid, htime, haddress, if_pos hstarts, List.takeWhile_eq_self_iff.mpr hdigits]

theorem volatileAt_address {token : Text} (h : Volatile.address.matches token = true) :
    volatileAt token = some ("<address>".toList, token.length) ∧ isDate token = false := by
  obtain ⟨d, digits, rfl, hall⟩ := addressToken_cases h
  rw [List.all_eq_true] at hall
  have hdash : '-' ∉ '0' :: 'x' :: d :: digits := by
    intro hmem
    rcases List.mem_cons.mp hmem with hmem | hmem
    · cases hmem
    · rcases List.mem_cons.mp hmem with hmem | hmem
      · cases hmem
      · exact absurd (hall _ hmem) (by decide)
  obtain ⟨hguid, htime, hdate⟩ := no_dash hdash
  refine ⟨?_, hdate⟩
  unfold volatileAt
  rw [hguid, htime, addressEnd_cons, if_pos (by simp [hall d List.mem_cons_self]),
    List.takeWhile_eq_self_iff.mpr fun c hc => hall c (List.mem_cons_of_mem _ hc)]
  have hlength : 3 + digits.length = ('0' :: 'x' :: d :: digits).length := by
    simp only [List.length_cons]
    omega
  rw [hlength]

theorem volatileAt_guid {token : Text} (h : Volatile.guid.matches token = true) :
    volatileAt token = some ("<guid>".toList, token.length) ∧ isDate token = false := by
  simp only [Volatile.matches, Bool.and_eq_true, beq_iff_eq] at h
  refine ⟨?_, by simp [isDate, h.1]⟩
  unfold volatileAt
  rw [guidEnd, if_pos h.2, h.1]

theorem clockPattern_timestampChar {clock : Text} (hlength : clock.length = 9)
    (h : startsWithPattern clockPattern clock = true) :
    ∃ h₁ h₂ m₁ m₂ s₁ s₂, clock = [h₁, h₂, ':', m₁, m₂, ':', s₁, s₂, 'Z'] ∧
      ∀ c ∈ [h₁, h₂, m₁, m₂, s₁, s₂], isAsciiDigit c = true := by
  match clock, hlength with
  | [h₁, h₂, c₁, m₁, m₂, c₂, s₁, s₂, z], _ =>
    simp only [clockPattern, startsWithPattern, Bool.and_eq_true, beq_iff_eq] at h
    obtain ⟨hh₁, hh₂, rfl, hm₁, hm₂, rfl, hs₁, hs₂, rfl, -⟩ := h
    refine ⟨h₁, h₂, m₁, m₂, s₁, s₂, rfl, ?_⟩
    simp [hh₁, hh₂, hm₁, hm₂, hs₁, hs₂]

/-- The parts of an ISO timestamp. -/
theorem timestampToken_cases {token : Text} (h : isTimestampToken token = true) :
    ∃ (date : Text) (h₁ h₂ m₁ m₂ s₁ s₂ : Char),
      token = date ++ 'T' :: [h₁, h₂, ':', m₁, m₂, ':', s₁, s₂, 'Z'] ∧
      isDate date = true ∧ ∀ c ∈ [h₁, h₂, m₁, m₂, s₁, s₂], isAsciiDigit c = true := by
  simp only [isTimestampToken, Bool.and_eq_true, beq_iff_eq] at h
  obtain ⟨⟨⟨hlength, hdate⟩, hhead⟩, hclock⟩ := h
  have hdrop : (token.drop 11).length = 9 := by rw [List.length_drop, hlength]
  obtain ⟨h₁, h₂, m₁, m₂, s₁, s₂, heq, hdigits⟩ := clockPattern_timestampChar hdrop hclock
  refine ⟨token.take 10, h₁, h₂, m₁, m₂, s₁, s₂, ?_, hdate, hdigits⟩
  have htail : token.drop 10 = 'T' :: token.drop 11 := by
    cases hten : token.drop 10 with
    | nil => simp [hten] at hhead
    | cons c t =>
      rw [hten] at hhead
      cases hhead
      rw [← List.tail_drop, hten]
      rfl
  rw [← heq, ← htail, List.take_append_drop]

theorem date_tests {s : Text} (h : isDate s = true) :
    (∀ c ∈ s, isTimestampChar c = true) ∧ '-' ∈ s.take 8 ∧ s.length = 10 ∧
      startsWithPattern datePattern s = true := by
  simp only [isDate, Bool.and_eq_true, beq_iff_eq] at h
  obtain ⟨hstarts, hlength⟩ := h
  refine ⟨?_, ?_, hlength, hstarts⟩
  all_goals
    match s, hlength with
    | [a, b, c, d, e, f, g, i, j, k], _ =>
      simp only [datePattern, startsWithPattern, Bool.and_eq_true, beq_iff_eq] at hstarts
      obtain ⟨ha, hb, hc, hd, rfl, hf, hg, rfl, hj, hk, -⟩ := hstarts
      simp [isTimestampChar, ha, hb, hc, hd, hf, hg, hj, hk]

theorem volatileAt_timestamp {token : Text} (h : Volatile.timestamp.matches token = true) :
    volatileAt token = some ("<timestamp>".toList, token.length) ∧ isDate token = false := by
  obtain ⟨date, h₁, h₂, m₁, m₂, s₁, s₂, rfl, hdate, hdigits⟩ := timestampToken_cases h
  obtain ⟨-, hdash, hlength, hstarts⟩ := date_tests hdate
  have hguid : guidEnd (date ++ 'T' :: [h₁, h₂, ':', m₁, m₂, ':', s₁, s₂, 'Z']) = none := by
    refine guidEnd_eq_none (.inr ⟨'-', ?_, rfl⟩)
    rw [List.take_append_of_le_length (by omega)]
    exact hdash
  have hclock : [h₁, h₂, ':', m₁, m₂, ':', s₁, s₂, 'Z'].takeWhile isTimestampChar =
      [h₁, h₂, ':', m₁, m₂, ':', s₁, s₂, 'Z'] := by
    simp only [List.forall_mem_cons] at hdigits
    simp [isTimestampChar, hdigits]
  have htime : timestampEnd (date ++ 'T' :: [h₁, h₂, ':', m₁, m₂, ':', s₁, s₂, 'Z']) = some 20 := by
    rw [timestampEnd, if_pos (startsWithPattern_append hstarts _), ← hlength, List.drop_left,
      timeLength, hclock, hlength]
    rfl
  refine ⟨?_, by simp [isDate, hlength]⟩
  unfold volatileAt
  rw [hguid, htime, List.length_append, hlength]
  rfl

theorem volatileAt_token {kind : Volatile} {token : Text} (h : kind.matches token = true) :
    volatileAt token = some (kind.placeholder, token.length) ∧ isDate token = false := by
  cases kind with
  | number => exact volatileAt_number h
  | address => exact volatileAt_address h
  | guid => exact volatileAt_guid h
  | timestamp => exact volatileAt_timestamp h

/-- Read from its first character, a token is replaced by the placeholder of its kind. -/
theorem templateLoop_token {kind : Volatile} {token after output : Text}
    (h : kind.matches token = true) (hafter : Stops after) :
    templateLoop (token ++ after) 0 output =
      templateLoop after 0 (pushTemplate output kind.placeholder) := by
  obtain ⟨hvalue, hdate⟩ := volatileAt_token h
  have hne : token ≠ [] := by
    rintro rfl
    cases hvalue
  exact templateLoop_value ((volatileAt_stops hafter hdate).trans hvalue) hne

end Reading

end FaultLane.TemplateTokens
