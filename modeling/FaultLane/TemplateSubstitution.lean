import FaultLane.TemplateTokens

set_option autoImplicit false

/-!
# Substitution of volatile tokens

When the template of a message stays the same under every replacement of one volatile
token by another of its kind.
-/
namespace FaultLane.TemplateSubstitution
open RustText GroupingText GroupingTemplate TemplateTokens

/-- The place of one token in a message, between white space or the ends. -/
structure Slot where
  before : Text
  after : Text
  opens : ∀ c ∈ before.getLast?, isWhitespace c = true
  closes : Stops after

def Slot.fill (slot : Slot) (token : Text) : Text := slot.before ++ (token ++ slot.after)

/-- The loop comes to the end of the text in a date with the one blank behind it, which it
takes for the date's time. `skip` counts the characters already read. -/
def dateOpen : Text → Nat → Bool
  | [], _ => false
  | _ :: s, skip + 1 => dateOpen s skip
  | c :: s, 0 =>
    if isDate ((c :: s).take 10) && (c :: s).drop 10 == [' '] then true
    else
      match volatileAt (c :: s) with
      | some (_, length) => dateOpen s (length - 1)
      | none => dateOpen s 0

section Prefixes

theorem addressEnd_length {s : Text} {length : Nat} (h : addressEnd s = some length) :
    length ≤ s.length := by
  match s with
  | [] => cases h
  | [_] =>
    rw [addressEnd_short (by simp)] at h
    cases h
  | [_, _] =>
    rw [addressEnd_short (by simp)] at h
    cases h
  | c :: d :: e :: digits =>
    rw [addressEnd_cons] at h
    split_ifs at h
    cases h
    have hrun := (digits.takeWhile_prefix isAsciiHexdigit).length_le
    simp only [List.length_cons]
    omega

theorem volatileAt_length {s placeholder : Text} {length : Nat}
    (h : volatileAt s = some (placeholder, length)) : length ≤ s.length := by
  have hguid : ∀ groups : List Nat, ∀ s : Text, guidGroups groups s = true →
      groups.sum + (groups.length - 1) ≤ s.length := by
    intro groups s
    induction groups, s using guidGroups.induct with
    | case1 s => exact fun _ => Nat.zero_le _
    | case2 last s =>
      intro h
      obtain ⟨rest, hrest⟩ := Option.isSome_iff_exists.mp h
      simpa using (hexDigits_take hrest).1
    | case3 length groups s hgroups rest hdigits ih =>
      intro h
      rw [guidGroups, hdigits] at h
      · have hle := (hexDigits_take hdigits).1
        have hdrop := congrArg List.length (hexDigits_drop hdigits)
        have hrest := ih h
        rw [List.length_cons, List.length_drop] at hdrop
        rw [List.sum_cons, List.length_cons]
        omega
      · exact hgroups
    | case4 length groups s hgroups hnone =>
      intro h
      rw [guidGroups] at h
      · split at h
        · next rest hdigits => exact absurd hdigits (hnone rest)
        · cases h
      · exact hgroups
  have htake : ∀ (p : Char → Bool) (t : Text), (t.takeWhile p).length ≤ t.length :=
    fun p t => (List.takeWhile_prefix p).length_le
  unfold volatileAt at h
  split at h
  · next heq =>
    unfold guidEnd at heq
    split_ifs at heq with hgroups
    cases heq
    cases h
    exact hguid _ _ hgroups
  · split at h
    · next heq =>
      unfold timestampEnd at heq
      split_ifs at heq with hstarts
      cases heq
      cases h
      have hten : 10 ≤ s.length := startsWithPattern_length hstarts
      have htime : timeLength (s.drop 10) ≤ (s.drop 10).length := by
        cases s.drop 10 with
        | nil => exact Nat.zero_le _
        | cons c t =>
          have hrun := htake isTimestampChar t
          rw [timeLength]
          split_ifs
          · rw [List.length_cons]
            omega
          · exact Nat.zero_le _
      rw [List.length_drop] at htime
      omega
    · split at h
      · next heq =>
        cases h
        exact addressEnd_length heq
      · split_ifs at h
        cases h
        exact htake _ _

theorem templateLoop_skip (s rest output : Text) (n : Nat) :
    templateLoop (s ++ rest) (s.length + n) output = templateLoop rest n output := by
  induction s with
  | nil => rw [List.nil_append, List.length_nil, Nat.zero_add]
  | cons c s ih =>
    rw [List.cons_append, List.length_cons, Nat.add_right_comm]
    exact ih

/-- What follows a text that ends in white space is read on its own, except where the
blank at the end belongs to a date. -/
theorem volatileAt_blank {s : Text} {w : Char} (hw : isWhitespace w = true)
    (hdate : ¬ (isDate s = true ∧ w = ' ')) (rest : Text) :
    volatileAt (s ++ w :: rest) = volatileAt (s ++ [w]) := by
  have hstops : ∀ t, Stops (w :: t) := by
    intro t c hc
    cases hc
    exact hw
  by_cases hd : isDate s = true
  · obtain ⟨-, hdash, hlength, hstarts⟩ := date_tests hd
    have hlen : ∀ t, timestampEnd (s ++ w :: t) = some 10 := by
      intro t
      have hspace : w ≠ ' ' := fun heq => hdate ⟨hd, heq⟩
      obtain ⟨-, -, -, -, -, -, hT, ht⟩ := whitespace_tests hw
      rw [timestampEnd, if_pos (startsWithPattern_append hstarts _), ← hlength, List.drop_left,
        timeLength, if_neg (by simp [hspace, hT, ht]), Nat.add_zero]
    have hguid : ∀ t, guidEnd (s ++ w :: t) = none := by
      intro t
      refine guidEnd_eq_none (.inr ⟨'-', ?_, rfl⟩)
      rw [List.take_append_of_le_length (by omega)]
      exact hdash
    unfold volatileAt
    rw [hguid, hguid, hlen, hlen]
  · rw [Bool.not_eq_true] at hd
    rw [volatileAt_stops (hstops rest) hd, volatileAt_stops (hstops []) hd]

/-- A date and its blank take the characters of a time that come after them. -/
theorem volatileAt_open {date : Text} (h : isDate date = true) (rest : Text) :
    volatileAt (date ++ ' ' :: rest) =
      some ("<timestamp>".toList, 11 + (rest.takeWhile isTimestampChar).length) := by
  obtain ⟨-, hdash, hlength, hstarts⟩ := date_tests h
  have hguid : guidEnd (date ++ ' ' :: rest) = none := by
    refine guidEnd_eq_none (.inr ⟨'-', ?_, rfl⟩)
    rw [List.take_append_of_le_length (by omega)]
    exact hdash
  have htime : timestampEnd (date ++ ' ' :: rest) =
      some (11 + (rest.takeWhile isTimestampChar).length) := by
    rw [timestampEnd, if_pos (startsWithPattern_append hstarts _), ← hlength, List.drop_left,
      timeLength, if_pos (by decide), hlength, ← Nat.add_assoc]
  unfold volatileAt
  rw [hguid, htime]

theorem dateOpen_iff (s : Text) :
    (isDate (s.take 10) && s.drop 10 == [' ']) = true ↔ ∃ date, isDate date = true ∧
      s = date ++ [' '] := by
  rw [Bool.and_eq_true, beq_iff_eq]
  constructor
  · rintro ⟨hdate, hdrop⟩
    exact ⟨s.take 10, hdate, by rw [← hdrop, List.take_append_drop]⟩
  · rintro ⟨date, hdate, rfl⟩
    have hlength := (date_tests hdate).2.2.1
    rw [← hlength, List.take_left, List.drop_left]
    exact ⟨hdate, rfl⟩

theorem templateLoop_open {c : Char} {s date : Text} (hdate : isDate date = true)
    (hs : c :: s = date ++ [' ']) (rest output : Text) :
    templateLoop (c :: s ++ rest) 0 output = templateLoop rest
      (rest.takeWhile isTimestampChar).length (pushTemplate output "<timestamp>".toList) := by
  have hlength : s.length = 10 := by
    have hboth := congrArg List.length hs
    rw [List.length_append, (date_tests hdate).2.2.1, List.length_cons] at hboth
    exact Nat.succ.inj hboth
  have hvalue : volatileAt (c :: (s ++ rest)) =
      some ("<timestamp>".toList, 11 + (rest.takeWhile isTimestampChar).length) := by
    rw [← List.cons_append, hs, List.append_assoc]
    exact volatileAt_open hdate rest
  rw [List.cons_append, templateLoop, hvalue]
  change templateLoop (s ++ rest) (11 + (rest.takeWhile isTimestampChar).length - 1) _ = _
  rw [← templateLoop_skip s rest, hlength]
  congr 1
  omega

/-- The loop goes through a text that ends in white space as if it were alone, but for the
time that it reads behind an open date. -/
theorem templateLoop_append {s : Text} {skip : Nat} (hs : ∀ c ∈ s.getLast?, isWhitespace c = true)
    (hskip : skip ≤ s.length) (rest output : Text) :
    templateLoop (s ++ rest) skip output =
      templateLoop rest (if dateOpen s skip then (rest.takeWhile isTimestampChar).length else 0)
        (templateLoop s skip output) := by
  induction s generalizing skip output with
  | nil =>
    cases Nat.le_zero.mp hskip
    rfl
  | cons c s ih =>
    have hs' : ∀ d ∈ s.getLast?, isWhitespace d = true := by
      intro d hd
      cases s with
      | nil => cases hd
      | cons e s => exact hs d (by rwa [List.getLast?_cons_cons])
    cases skip with
    | succ skip => exact ih hs' (Nat.le_of_succ_le_succ hskip) output
    | zero =>
      obtain ⟨init, w, heq⟩ := (List.eq_nil_or_concat' (c :: s)).resolve_left (List.cons_ne_nil _ _)
      have hw : isWhitespace w = true := hs w (by rw [heq, List.getLast?_concat]; rfl)
      rw [dateOpen]
      by_cases hopen : (isDate ((c :: s).take 10) && (c :: s).drop 10 == [' ']) = true
      · obtain ⟨date, hdate, hc⟩ := (dateOpen_iff _).mp hopen
        have halone := templateLoop_open hdate hc [] output
        rw [List.append_nil] at halone
        rw [if_pos hopen, templateLoop_open hdate hc, halone]
        rfl
      · have hvalue : volatileAt (c :: (s ++ rest)) = volatileAt (c :: s) := by
          rw [← List.cons_append, heq, List.append_assoc]
          refine volatileAt_blank hw (fun hdate => hopen ?_) rest
          exact (dateOpen_iff _).mpr ⟨init, hdate.1, hdate.2 ▸ heq⟩
        rw [if_neg hopen, List.cons_append, templateLoop, templateLoop, hvalue]
        cases hat : volatileAt (c :: s) with
        | none => exact ih hs' (Nat.zero_le _) _
        | some value =>
          obtain ⟨placeholder, length⟩ := value
          have hle := volatileAt_length hat
          rw [List.length_cons] at hle
          exact ih hs' (by omega) _

theorem templateLoop_dateOpen {s : Text} {skip : Nat} (h : dateOpen s skip = true)
    (output : Text) :
    ∃ previous, templateLoop s skip output = pushTemplate previous "<timestamp>".toList := by
  induction s generalizing skip output with
  | nil => cases h
  | cons c s ih =>
    cases skip with
    | succ skip => exact ih h output
    | zero =>
      rw [dateOpen] at h
      split_ifs at h with hopen
      · obtain ⟨date, hdate, hc⟩ := (dateOpen_iff _).mp hopen
        have halone := templateLoop_open hdate hc [] output
        rw [List.append_nil] at halone
        exact ⟨output, halone⟩
      · rw [templateLoop]
        cases hat : volatileAt (c :: s) with
        | none =>
          rw [hat] at h
          exact ih h _
        | some value =>
          rw [hat] at h
          exact ih h _

end Prefixes

section OpenDates

/-- Behind an open date the leading characters of a time are skipped. -/
theorem templateLoop_time {after : Text} (hafter : Stops after) (token output : Text) :
    templateLoop (token ++ after) ((token ++ after).takeWhile isTimestampChar).length output =
      templateLoop (token.dropWhile isTimestampChar ++ after) 0 output := by
  have hsplit : token ++ after =
      token.takeWhile isTimestampChar ++ (token.dropWhile isTimestampChar ++ after) := by
    rw [← List.append_assoc, List.takeWhile_append_dropWhile]
  rw [takeWhile_stops hafter fun c hc => (whitespace_tests hc).2.2.1, hsplit]
  exact templateLoop_skip _ _ _ 0

theorem templateLoop_nonhex {c : Char} (hc : isAsciiHexdigit c = false) (s output : Text) :
    templateLoop (c :: s) 0 output = templateLoop s 0 (templateChar output c) := by
  have hdigit : isAsciiDigit c = false := by
    simp only [isAsciiHexdigit, Bool.or_eq_false_iff] at hc
    exact hc.1.1
  have hguid : guidEnd (c :: s) = none := guidEnd_eq_none (.inr ⟨c, List.mem_cons_self, hc⟩)
  rw [templateLoop, volatileAt_nondigit hdigit hguid]

theorem templateLoop_two {a b c : Char} (ha : isAsciiDigit a = true) (hb : isAsciiDigit b = true)
    (hc : isAsciiHexdigit c = false) (s output : Text) :
    templateLoop (a :: b :: c :: s) 0 output =
      templateLoop (c :: s) 0 (pushTemplate output "<number>".toList) := by
  have hdigit : isAsciiDigit c = false := by
    simp only [isAsciiHexdigit, Bool.or_eq_false_iff] at hc
    exact hc.1.1
  have hguid : guidEnd (a :: b :: c :: s) = none :=
    guidEnd_eq_none (.inr ⟨c, by simp, hc⟩)
  have htime : timestampEnd (a :: b :: c :: s) = none := by
    simp [timestampEnd, datePattern, startsWithPattern, hdigit]
  have haddress : addressEnd (a :: b :: c :: s) = none := by
    rw [addressEnd_cons]
    simp [hc]
  have hvalue : volatileAt ([a, b] ++ c :: s) = some ("<number>".toList, 2) := by
    unfold volatileAt
    simp only [List.cons_append, List.nil_append]
    rw [hguid, htime, haddress]
    simp [startsWithPattern, ha, hb, hdigit]
  exact templateLoop_value hvalue (List.cons_ne_nil _ _)

/-- What the time of an ISO timestamp leaves in the template when its date is skipped. -/
def pushClock (output : Text) : Text :=
  templateChar (pushTemplate (templateChar (pushTemplate (templateChar (pushTemplate
    (templateChar output 'T') "<number>".toList) ':') "<number>".toList) ':')
    "<number>".toList) 'Z'

theorem dropWhile_number {token : Text} (h : Volatile.number.matches token = true) :
    token.dropWhile isTimestampChar = [] := by
  simp only [Volatile.matches, Bool.and_eq_true, List.all_eq_true] at h
  rw [List.dropWhile_eq_nil_iff]
  intro c hc
  simp [isTimestampChar, h.2 c hc]

theorem templateLoop_timestamp {token : Text} (h : Volatile.timestamp.matches token = true)
    (after output : Text) :
    templateLoop (token.dropWhile isTimestampChar ++ after) 0 output =
      templateLoop after 0 (pushClock output) := by
  obtain ⟨date, h₁, h₂, m₁, m₂, s₁, s₂, rfl, hdate, hdigits⟩ := timestampToken_cases h
  simp only [List.forall_mem_cons] at hdigits
  obtain ⟨hh₁, hh₂, hm₁, hm₂, hs₁, hs₂, -⟩ := hdigits
  rw [List.dropWhile_append_of_pos (date_tests hdate).1, List.dropWhile_cons_of_neg (by decide)]
  simp only [List.cons_append, List.nil_append]
  rw [templateLoop_nonhex (by rfl), templateLoop_two hh₁ hh₂ (by rfl), templateLoop_nonhex (by rfl),
    templateLoop_two hm₁ hm₂ (by rfl), templateLoop_nonhex (by rfl),
    templateLoop_two hs₁ hs₂ (by rfl), templateLoop_nonhex (by rfl)]
  rfl

theorem templateLoop_address {token : Text} (h : Volatile.address.matches token = true)
    (after output : Text) :
    ∃ digits, templateLoop (token.dropWhile isTimestampChar ++ after) 0 output =
      templateLoop (digits ++ after) 0 (output ++ ['x']) ∧ token = '0' :: 'x' :: digits := by
  obtain ⟨d, digits, rfl, -⟩ := addressToken_cases h
  refine ⟨d :: digits, ?_, rfl⟩
  rw [List.dropWhile_cons_of_pos (by decide), List.dropWhile_cons_of_neg (by decide),
    List.cons_append, templateLoop_nonhex (by rfl)]
  rfl

end OpenDates

section Cuts

theorem prefix_trim {output shown : Text} (h : Tidy output) (hshown : shown <+: output)
    (hlast : ∀ c ∈ shown.getLast?, isWhitespace c = false) : shown <+: trim output := by
  obtain ⟨blanks, heq, hblanks⟩ := h.trim_append
  rcases List.prefix_or_prefix_of_prefix hshown ⟨blanks, heq.symm⟩ with hshorter | ⟨t, rfl⟩
  · exact hshorter
  · rcases List.eq_nil_or_concat' t with rfl | ⟨init, c, rfl⟩
    · rw [List.append_nil]
    · exfalso
      have hc : isWhitespace c = false := by
        apply hlast c
        rw [← List.append_assoc, List.getLast?_concat]
        rfl
      have hboth : trim output ++ (init ++ [c]) <+: trim output ++ blanks := by
        rwa [← heq]
      have ht : init ++ [c] <+: blanks := (List.prefix_append_right_inj _).mp hboth
      have hspace : c = ' ' := hblanks c (ht.subset (by simp))
      rw [hspace] at hc
      cases hc

/-- Of two outputs that begin alike, nothing but the beginning is kept. -/
theorem bounded_trim_prefix {output shown : Text} (h : Tidy output) (hshown : shown <+: output)
    (hlast : ∀ c ∈ shown.getLast?, isWhitespace c = false)
    (hlength : maxErrorTemplateChars ≤ shown.length) :
    bounded (trim output) maxErrorTemplateChars = bounded shown maxErrorTemplateChars := by
  obtain ⟨t, ht⟩ := prefix_trim h hshown hlast
  rw [← ht, bounded, List.take_append_of_le_length hlength]
  rfl

theorem bounded_trim_get {output shown : Text} {c : Char} (h : Tidy output)
    (hshown : shown ++ [c] <+: output) (hc : isWhitespace c = false)
    (hlength : shown.length < maxErrorTemplateChars) :
    (bounded (trim output) maxErrorTemplateChars)[shown.length]? = some c := by
  have hlast : ∀ d ∈ (shown ++ [c]).getLast?, isWhitespace d = false := by
    intro d hd
    rw [List.getLast?_concat] at hd
    cases hd
    exact hc
  obtain ⟨t, ht⟩ := prefix_trim h hshown hlast
  rw [← ht, bounded, List.getElem?_take_of_lt hlength, List.append_assoc,
    List.getElem?_append_right (Nat.le_refl _), Nat.sub_self]
  rfl

end Cuts

section Slots

/-- What the loop has put out when it comes to the slot. -/
def Slot.output (slot : Slot) : Text := templateLoop slot.before 0 []

theorem Slot.templateLoop_fill (slot : Slot) {kind : Volatile} {token : Text}
    (h : kind.matches token = true) :
    templateLoop (slot.fill token) 0 [] =
      if dateOpen slot.before 0 then
        templateLoop (token.dropWhile isTimestampChar ++ slot.after) 0 slot.output
      else templateLoop slot.after 0 (pushTemplate slot.output kind.placeholder) := by
  rw [Slot.fill, templateLoop_append slot.opens (Nat.zero_le _)]
  split_ifs
  · exact templateLoop_time slot.closes token slot.output
  · exact templateLoop_token h slot.closes

theorem normalizeTemplate_eq {message : Text} (h : message.length ≤ maxErrorInputChars) :
    normalizeTemplate message =
      bounded (trim (templateLoop message 0 [])) maxErrorTemplateChars := by
  have hinput : bounded message maxErrorInputChars = message := List.take_of_length_le h
  rw [normalizeTemplate, hinput]

theorem loop_tidy (message : Text) : Tidy (templateLoop message 0 []) :=
  templateLoop_tidy ⟨nofun, nofun⟩

/-- How many characters behind an open date show which token of the kind was read there. -/
def Volatile.shownWithin : Volatile → Option Nat
  | .number => none
  | .address => some 2
  | .guid => some 1
  | .timestamp => none

/-- The token is read into an open date, and the template has room to show it. -/
def Slot.shows (slot : Slot) (kind : Volatile) : Bool :=
  dateOpen slot.before 0 &&
    (Volatile.shownWithin kind).any (slot.output.length + · ≤ maxErrorTemplateChars)

theorem Slot.output_open (slot : Slot) (h : dateOpen slot.before 0 = true) :
    endsWith "<timestamp>".toList slot.output = true ∧ slot.output.getLast? = some '>' := by
  obtain ⟨previous, hprevious⟩ := templateLoop_dateOpen h []
  have hends : endsWith "<timestamp>".toList slot.output = true := by
    rw [Slot.output, hprevious, pushTemplate]
    split_ifs with hends
    · exact hends
    · exact List.isSuffixOf_iff_suffix.mpr (List.suffix_append _ _)
  refine ⟨hends, ?_⟩
  obtain ⟨s, hs⟩ := List.isSuffixOf_iff_suffix.mp hends
  rw [← hs, List.getLast?_append]
  rfl

theorem Slot.normalize_eq_of_not_shows (slot : Slot) {kind : Volatile} {token other : Text}
    (hshows : slot.shows kind = false) (htoken : kind.matches token = true)
    (hother : kind.matches other = true)
    (hlength : (slot.fill token).length ≤ maxErrorInputChars)
    (hlength' : (slot.fill other).length ≤ maxErrorInputChars) :
    normalizeTemplate (slot.fill other) = normalizeTemplate (slot.fill token) := by
  rw [normalizeTemplate_eq hlength, normalizeTemplate_eq hlength']
  have hfill := slot.templateLoop_fill htoken
  have hfill' := slot.templateLoop_fill hother
  by_cases hopen : dateOpen slot.before 0 = true
  · rw [if_pos hopen] at hfill hfill'
    simp only [Slot.shows, hopen, Bool.true_and] at hshows
    have hlast := (slot.output_open hopen).2
    cases kind with
    | number =>
      rw [hfill, hfill', dropWhile_number htoken, dropWhile_number hother]
    | timestamp =>
      rw [hfill, hfill', templateLoop_timestamp htoken, templateLoop_timestamp hother]
    | address =>
      have hfull : maxErrorTemplateChars ≤ (slot.output ++ ['x']).length := by
        simp only [Volatile.shownWithin, Option.any_some, decide_eq_false_iff_not] at hshows
        rw [List.length_append, List.length_singleton]
        omega
      have hx : ∀ c ∈ (slot.output ++ ['x']).getLast?, isWhitespace c = false := by
        intro c hc
        rw [List.getLast?_concat] at hc
        cases hc
        rfl
      have hcut : ∀ {value : Text}, Volatile.address.matches value = true →
          bounded (trim (templateLoop (slot.fill value) 0 [])) maxErrorTemplateChars =
            bounded (slot.output ++ ['x']) maxErrorTemplateChars := by
        intro value hvalue
        refine bounded_trim_prefix (loop_tidy _) ?_ hx hfull
        obtain ⟨digits, hdigits, -⟩ := templateLoop_address hvalue slot.after slot.output
        rw [slot.templateLoop_fill hvalue, if_pos hopen, hdigits]
        exact templateLoop_extends _ _ _
      rw [hcut htoken, hcut hother]
    | guid =>
      have hfull : maxErrorTemplateChars ≤ slot.output.length := by
        simp only [Volatile.shownWithin, Option.any_some, decide_eq_false_iff_not] at hshows
        omega
      have hangle : ∀ c ∈ slot.output.getLast?, isWhitespace c = false := by
        intro c hc
        rw [hlast] at hc
        cases hc
        rfl
      have hcut : ∀ {value : Text}, Volatile.guid.matches value = true →
          bounded (trim (templateLoop (slot.fill value) 0 [])) maxErrorTemplateChars =
            bounded slot.output maxErrorTemplateChars := by
        intro value hvalue
        refine bounded_trim_prefix (loop_tidy _) ?_ hangle hfull
        rw [slot.templateLoop_fill hvalue, if_pos hopen]
        exact templateLoop_extends _ _ _
      rw [hcut htoken, hcut hother]
  · rw [if_neg hopen] at hfill hfill'
    rw [hfill, hfill']

theorem Slot.fill_length (slot : Slot) (token : Text) :
    (slot.fill token).length = slot.before.length + (token.length + slot.after.length) := by
  rw [Slot.fill, List.length_append, List.length_append]

theorem Slot.fill_le (slot : Slot) {token other : Text}
    (hlength : (slot.fill token).length ≤ maxErrorInputChars)
    (hle : other.length ≤ token.length) : (slot.fill other).length ≤ maxErrorInputChars := by
  rw [Slot.fill_length] at hlength ⊢
  omega

def letterAddress : Text := "0xa".toList

def digitAddress : Text := "0x1".toList

theorem addresses_match : Volatile.address.matches letterAddress = true ∧
    Volatile.address.matches digitAddress = true := ⟨rfl, rfl⟩

theorem Slot.address_ne (slot : Slot) (hshows : slot.shows .address = true)
    (hlength : (slot.fill letterAddress).length ≤ maxErrorInputChars)
    (hlength' : (slot.fill digitAddress).length ≤ maxErrorInputChars) :
    normalizeTemplate (slot.fill letterAddress) ≠ normalizeTemplate (slot.fill digitAddress) := by
  simp only [Slot.shows, Bool.and_eq_true, Volatile.shownWithin, Option.any_some,
    decide_eq_true_eq] at hshows
  obtain ⟨hopen, hroom⟩ := hshows
  have hroom' : (slot.output ++ ['x']).length < maxErrorTemplateChars := by
    rw [List.length_append, List.length_singleton]
    omega
  obtain ⟨hmatches, hmatches'⟩ := addresses_match
  have hletter : slot.output ++ ['x'] ++ ['a'] <+: templateLoop (slot.fill letterAddress) 0 [] := by
    have hvalue : volatileAt ('a' :: slot.after) = none :=
      volatileAt_stops slot.closes (show isDate ['a'] = false by rfl)
    have hread : templateLoop ('a' :: slot.after) 0 (slot.output ++ ['x']) =
        templateLoop slot.after 0 (slot.output ++ ['x'] ++ ['a']) := by
      rw [templateLoop, hvalue]
      rfl
    rw [slot.templateLoop_fill hmatches, if_pos hopen]
    change _ <+: templateLoop ('x' :: 'a' :: slot.after) 0 slot.output
    rw [templateLoop_nonhex (by rfl)]
    exact hread ▸ templateLoop_extends _ _ _
  have hdigit : slot.output ++ ['x'] ++ ['<'] <+: templateLoop (slot.fill digitAddress) 0 [] := by
    have hone : Volatile.number.matches ['1'] = true := by rfl
    have hread : templateLoop ('1' :: slot.after) 0 (slot.output ++ ['x']) =
        templateLoop slot.after 0 (pushTemplate (slot.output ++ ['x']) "<number>".toList) :=
      templateLoop_token hone slot.closes
    have hpush : pushTemplate (slot.output ++ ['x']) "<number>".toList =
        slot.output ++ ['x'] ++ ['<'] ++ "number>".toList := by
      rw [pushTemplate, endsWith_append_singleton _ (by rfl) (by decide : 'x' ≠ '>'),
        List.append_assoc _ ['<']]
      rfl
    rw [slot.templateLoop_fill hmatches', if_pos hopen]
    change _ <+: templateLoop ('x' :: '1' :: slot.after) 0 slot.output
    rw [templateLoop_nonhex (by rfl)]
    change _ <+: templateLoop ('1' :: slot.after) 0 (slot.output ++ ['x'])
    rw [hread, hpush]
    exact (List.prefix_append _ _).trans (templateLoop_extends _ _ _)
  intro heq
  have ha := bounded_trim_get (loop_tidy _) hletter (by rfl) hroom'
  have hangle := bounded_trim_get (loop_tidy _) hdigit (by rfl) hroom'
  rw [← normalizeTemplate_eq hlength] at ha
  rw [← normalizeTemplate_eq hlength', ← heq, ha] at hangle
  exact absurd hangle (by decide)

def digitGuid : Text := "00000000-0000-0000-0000-000000000000".toList

def letterGuid : Text := "aaaaaaaa-0000-0000-0000-000000000000".toList

theorem guids_match : Volatile.guid.matches letterGuid = true ∧
    Volatile.guid.matches digitGuid = true := by decide

/-- A GUID of digits only is skipped whole, and one that begins with a letter is read. -/
theorem Slot.guid_ne (slot : Slot) (hshows : slot.shows .guid = true)
    (hlength : (slot.fill letterGuid).length ≤ maxErrorInputChars)
    (hlength' : (slot.fill digitGuid).length ≤ maxErrorInputChars) :
    normalizeTemplate (slot.fill letterGuid) ≠ normalizeTemplate (slot.fill digitGuid) := by
  simp only [Slot.shows, Bool.and_eq_true, Volatile.shownWithin, Option.any_some,
    decide_eq_true_eq] at hshows
  obtain ⟨hopen, hroom⟩ := hshows
  obtain ⟨hends, hlast⟩ := slot.output_open hopen
  have hroom' : slot.output.length < maxErrorTemplateChars := hroom
  obtain ⟨hmatches, hmatches'⟩ := guids_match
  have hletter : slot.output ++ ['<'] <+: templateLoop (slot.fill letterGuid) 0 [] := by
    have hdrop : letterGuid.dropWhile isTimestampChar = letterGuid := by decide
    have hnot : endsWith "<guid>".toList slot.output = false := by
      by_contra hguid
      rw [Bool.not_eq_false] at hguid
      obtain ⟨s, hs⟩ := List.isSuffixOf_iff_suffix.mp hguid
      obtain ⟨t, ht⟩ := List.isSuffixOf_iff_suffix.mp hends
      have hboth := List.suffix_of_suffix_length_le ⟨s, hs⟩ ⟨t, ht⟩ (by decide)
      exact absurd hboth (by decide)
    rw [slot.templateLoop_fill hmatches, if_pos hopen, hdrop,
      templateLoop_token hmatches slot.closes]
    change _ <+: templateLoop slot.after 0 (pushTemplate slot.output "<guid>".toList)
    rw [pushTemplate, hnot]
    exact (List.prefix_append (slot.output ++ ['<']) "guid>".toList).trans
      (by simpa using templateLoop_extends slot.after (slot.output ++ "<guid>".toList) 0)
  intro heq
  have hangle := bounded_trim_get (loop_tidy _) hletter (by rfl) hroom'
  rw [← normalizeTemplate_eq hlength, heq, normalizeTemplate_eq hlength', bounded,
    List.getElem?_take_of_lt hroom'] at hangle
  have hdrop : digitGuid.dropWhile isTimestampChar = [] := by decide
  obtain ⟨blanks, htrim, -⟩ := (loop_tidy (slot.fill digitGuid)).trim_append
  have hbehind : (templateLoop slot.after 0 slot.output)[slot.output.length]? = some '<' := by
    have hbound := (List.getElem?_eq_some_iff.mp hangle).1
    have hfill := slot.templateLoop_fill hmatches'
    rw [if_pos hopen, hdrop, List.nil_append] at hfill
    rw [← hfill, htrim, List.getElem?_append_left hbound, hangle]
  cases hafter : slot.after with
  | nil =>
    rw [hafter, templateLoop, List.getElem?_eq_none (Nat.le_refl _)] at hbehind
    cases hbehind
  | cons c after =>
    have hc : isWhitespace c = true := slot.closes c (by rw [hafter]; rfl)
    have hne : slot.output ≠ [] := by
      intro hnil
      rw [hnil] at hlast
      cases hlast
    have hspace : endsWith [' '] slot.output = false := by
      obtain ⟨init, d, hinit⟩ := (List.eq_nil_or_concat' slot.output).resolve_left hne
      rw [hinit, List.getLast?_concat] at hlast
      cases hlast
      rw [hinit]
      exact endsWith_append_singleton init (by rfl) (by decide)
    have hpush : templateChar slot.output c = slot.output ++ [' '] := by
      rw [templateChar, if_pos hc, if_pos]
      simp [hspace, hne]
    rw [hafter, templateLoop_nonhex (whitespace_tests hc).2.1, hpush] at hbehind
    obtain ⟨t, ht⟩ := templateLoop_extends after (slot.output ++ [' ']) 0
    rw [← ht, List.append_assoc, List.getElem?_append_right (Nat.le_refl _),
      Nat.sub_self] at hbehind
    exact absurd hbehind (by simp)

end Slots

/-- Every replacement of a token by another of its kind keeps the template, unless the token
is read into an open date and shows there. -/
theorem normalizeTemplate_fill_iff (slot : Slot) (kind : Volatile) (token : Text)
    (htoken : kind.matches token = true)
    (hlength : (slot.fill token).length ≤ maxErrorInputChars) :
    (∀ other, kind.matches other = true → (slot.fill other).length ≤ maxErrorInputChars →
      normalizeTemplate (slot.fill other) = normalizeTemplate (slot.fill token)) ↔
    slot.shows kind = false := by
  constructor
  · intro h
    by_contra hshows
    rw [Bool.not_eq_false] at hshows
    cases kind with
    | number => simp [Slot.shows, Volatile.shownWithin] at hshows
    | timestamp => simp [Slot.shows, Volatile.shownWithin] at hshows
    | address =>
      have hle : letterAddress.length ≤ token.length := by
        obtain ⟨d, digits, rfl, -⟩ := addressToken_cases htoken
        simp [letterAddress]
      have hfill := slot.fill_le hlength hle
      have hfill' : (slot.fill digitAddress).length ≤ maxErrorInputChars := slot.fill_le hlength hle
      exact slot.address_ne hshows hfill hfill'
        ((h _ addresses_match.1 hfill).trans (h _ addresses_match.2 hfill').symm)
    | guid =>
      have hlong : token.length = 36 := by
        simp only [Volatile.matches, Bool.and_eq_true, beq_iff_eq] at htoken
        exact htoken.1
      have hsame : letterGuid.length = 36 ∧ digitGuid.length = 36 := by decide
      have hfill := slot.fill_le hlength (hsame.1.trans hlong.symm).le
      have hfill' := slot.fill_le hlength (hsame.2.trans hlong.symm).le
      exact slot.guid_ne hshows hfill hfill'
        ((h _ guids_match.1 hfill).trans (h _ guids_match.2 hfill').symm)
  · intro hshows other hother hlength'
    exact slot.normalize_eq_of_not_shows hshows htoken hother hlength hlength'

def datedSlot : Slot where
  before := "failed on 2026-08-14 ".toList
  after := " for good".toList
  opens := fun _ hc => by cases hc; rfl
  closes := fun _ hc => by cases hc; rfl

theorem normalizeTemplate_fill_dated :
    (∀ other, Volatile.address.matches other = true →
      (datedSlot.fill other).length ≤ maxErrorInputChars →
      normalizeTemplate (datedSlot.fill other) =
        normalizeTemplate (datedSlot.fill "0x1F".toList)) ↔
    datedSlot.shows .address = false :=
  normalizeTemplate_fill_iff datedSlot .address "0x1F".toList (by decide) (by decide)

theorem normalizeTemplate_dated_ne :
    ¬ ∀ (slot : Slot) (kind : Volatile) (token other : Text), kind.matches token = true →
      kind.matches other = true → (slot.fill token).length ≤ maxErrorInputChars →
      (slot.fill other).length ≤ maxErrorInputChars →
      normalizeTemplate (slot.fill other) = normalizeTemplate (slot.fill token) := by
  intro h
  have heq := h datedSlot .address "0x1F".toList "0x2A".toList (by decide)
    (by decide) (by decide) (by decide)
  exact absurd heq (by decide +kernel)

end FaultLane.TemplateSubstitution
