import FaultLane.FixedNumerals
import Mathlib.Data.Prod.Lex
import Mathlib.Data.Char
import Mathlib.Data.List.Lex
import Mathlib.Data.Nat.Digits.Lemmas

set_option autoImplicit false

/-!
# Identifiers and times as text

The texts in which the database gives uuids and times, and the uuids that a request may name.
-/
namespace FaultLane.RowTexts
open RustText FixedNumerals

/-! ## Identifiers -/

abbrev Uuid := Fin (2 ^ 128)

instance neZero_uuids : NeZero (2 ^ 128) := ⟨by decide⟩

def uuidPlaces : List (Option Char) := places "00000000-0000-0000-0000-000000000000"

/-- `id::text`. -/
def uuidText (id : Uuid) : Text := fill uuidPlaces (numeral 16 32 id)

/-- `$1::uuid`, of the texts that `valid_uuid` accepts. -/
def readUuid (t : Text) : Option Uuid := do
  let n ← (holes uuidPlaces t).bind (readNumeral 16)
  if h : n < 2 ^ 128 then some ⟨n, h⟩ else none

/-- `valid_uuid`. The bytes of other characters than ASCII ones are no digits either. -/
def validUuid (value : Text) : Bool :=
  byteLength value = 36 && value.zipIdx.all fun (c, index) =>
    if index = 8 ∨ index = 13 ∨ index = 18 ∨ index = 23 then c == '-' else isAsciiHexdigit c

section uuids
variable {id : Uuid} {t : Text}

theorem byteLength_of_ascii (h : ∀ c ∈ t, c.utf8Size = 1) : byteLength t = t.length := by
  unfold byteLength
  induction t with
  | nil => rfl
  | cons c t ih =>
    have hc := h c List.mem_cons_self
    have ht := ih fun d hd => h d (List.mem_cons_of_mem c hd)
    rw [List.map_cons, List.sum_cons, hc, ht, List.length_cons, Nat.add_comm]

theorem utf8Size_of_lt {c : Char} (hc : c.toNat < 128) : c.utf8Size = 1 := by
  have hval : c.val.toNat ≤ 127 := Nat.lt_succ_iff.mp hc
  exact Char.utf8Size_eq_one_iff.mpr (UInt32.le_iff_toNat_le.mpr hval)

theorem toNat_lt_of_hex {c : Char} (h : isAsciiHexdigit c = true) : c.toNat < 128 := by
  unfold isAsciiHexdigit isAsciiDigit at h
  simp only [Bool.or_eq_true, Bool.and_eq_true, decide_eq_true_eq] at h
  omega

theorem length_uuidDigits : (numeral 16 32 id).length = uuidPlaces.count none := by
  rw [length_numeral]
  decide

theorem readUuid_text : readUuid (uuidText id) = some id := by
  unfold readUuid uuidText
  rw [holes_fill length_uuidDigits, Option.bind_some,
    readNumeral_numeral (by decide) (by decide) (lt_of_lt_of_eq id.isLt (by norm_num))]
  exact dif_pos id.isLt

/-- The texts of identifiers are ordered as the identifiers. -/
theorem uuidText_strictMono : StrictMono uuidText := by
  intro a b hab
  have hb : (b : Nat) < 16 ^ 32 := lt_of_lt_of_eq b.isLt (by norm_num)
  exact fill_lt length_uuidDigits length_uuidDigits
    (numeral_lt (by decide) (by decide) (Fin.lt_def.mp hab) hb)

/-- What the digits and the dashes of an identifier have. -/
theorem uuidText_all {p : Char → Prop} (hp : ∀ d < 16, p (hexDigitChar d)) (hdash : p '-') :
    ∀ c ∈ uuidText id, p c := by
  refine fill_all (fun c hc => ?_) (numeral_all (by decide) hp)
  have hall : ∀ place ∈ uuidPlaces, place = none ∨ place = some '-' := by decide
  rcases hall (some c) hc with h | h
  · cases h
  · rw [Option.some.inj h]
    exact hdash

theorem byteLength_uuidText : byteLength (uuidText id) = 36 := by
  rw [byteLength_of_ascii (uuidText_all (by decide) (by decide)), uuidText,
    length_fill length_uuidDigits]
  decide

/-- A character at a place of an identifier. -/
def Fits : Option Char → Char → Prop
  | some c, d => d = c
  | none, d => isAsciiHexdigit d = true

theorem uuidPlaces_get {i : Nat} (hi : i < uuidPlaces.length) : uuidPlaces[i] =
    if i = 8 ∨ i = 13 ∨ i = 18 ∨ i = 23 then some '-' else none := by
  have hall : ∀ j : Fin uuidPlaces.length, uuidPlaces.get j =
      if j.val = 8 ∨ j.val = 13 ∨ j.val = 18 ∨ j.val = 23 then some '-' else none := by decide
  exact hall ⟨i, hi⟩

theorem all_iff_fits (ht : t.length = uuidPlaces.length) :
    (t.zipIdx.all fun (c, index) =>
      if index = 8 ∨ index = 13 ∨ index = 18 ∨ index = 23 then c == '-' else isAsciiHexdigit c) ↔
      List.Forall₂ Fits uuidPlaces t := by
  rw [List.all_eq_true, List.forall₂_iff_get]
  have hplace : ∀ (i : Nat) (hi : i < t.length),
      Fits (uuidPlaces.get ⟨i, ht ▸ hi⟩) (t.get ⟨i, hi⟩) ↔
        (if i = 8 ∨ i = 13 ∨ i = 18 ∨ i = 23 then t.get ⟨i, hi⟩ == '-'
          else isAsciiHexdigit (t.get ⟨i, hi⟩)) = true := by
    intro i hi
    rw [List.get_eq_getElem, uuidPlaces_get]
    split_ifs with hdash
    · exact beq_iff_eq.symm
    · exact Iff.rfl
  constructor
  · intro h
    refine ⟨ht.symm, fun i _ hi => (hplace i hi).mpr (h (t.get ⟨i, hi⟩, i) ?_)⟩
    exact List.mem_zipIdx_iff_getElem?.mpr (List.getElem?_eq_getElem hi)
  · rintro ⟨-, h⟩ ⟨c, i⟩ hci
    obtain ⟨hi, hc⟩ := List.getElem?_eq_some_iff.mp (List.mem_zipIdx_iff_getElem?.mp hci)
    have hfits := (hplace i hi).mp (h i (ht ▸ hi) hi)
    rw [List.get_eq_getElem, hc] at hfits
    exact hfits

theorem fits_fill {pattern : List (Option Char)} (ht : t.length = pattern.count none)
    (hhex : ∀ c ∈ t, isAsciiHexdigit c = true) : List.Forall₂ Fits pattern (fill pattern t) := by
  induction pattern generalizing t with
  | nil => exact .nil
  | cons place pattern ih =>
    cases place with
    | some c =>
      rw [List.count_cons_of_ne (by exact nofun)] at ht
      exact .cons rfl (ih ht hhex)
    | none =>
      rw [List.count_cons_self] at ht
      cases t with
      | nil => cases ht
      | cons d t =>
        exact .cons (hhex d List.mem_cons_self)
          (ih (Nat.succ.inj ht) fun c hc => hhex c (List.mem_cons_of_mem d hc))

theorem validUuid_text : validUuid (uuidText id) = true := by
  have hlength : (uuidText id).length = uuidPlaces.length := length_fill length_uuidDigits
  have hfits : List.Forall₂ Fits uuidPlaces (uuidText id) :=
    fits_fill length_uuidDigits (numeral_all (by decide) (by decide))
  unfold validUuid
  rw [decide_eq_true byteLength_uuidText, Bool.true_and]
  exact (all_iff_fits hlength).mpr hfits

theorem digitValue_of_hex {c : Char} (h : isAsciiHexdigit c = true) :
    ∃ d < 16, digitValue 16 c = some d := by
  unfold isAsciiHexdigit isAsciiDigit at h
  unfold digitValue hexDigitValue isAsciiDigit
  simp only [Bool.or_eq_true, Bool.and_eq_true, decide_eq_true_eq] at h ⊢
  split_ifs with h1 h2 h3
  · have hlt : c.toNat - 0x30 < 16 := by omega
    exact ⟨c.toNat - 0x30, hlt, if_pos (decide_eq_true hlt)⟩
  · have hlt : c.toNat - 0x61 + 10 < 16 := by omega
    exact ⟨c.toNat - 0x61 + 10, hlt, if_pos (decide_eq_true hlt)⟩
  · have hlt : c.toNat - 0x41 + 10 < 16 := by omega
    exact ⟨c.toNat - 0x41 + 10, hlt, if_pos (decide_eq_true hlt)⟩
  · omega

/-- The digits between the dashes are read. -/
theorem read_of_fits {pattern : List (Option Char)} (h : List.Forall₂ Fits pattern t) :
    ∃ hs ds, holes pattern t = some hs ∧ hs.mapM (digitValue 16) = some ds ∧
      ds.length = pattern.count none ∧ ∀ d ∈ ds, d < 16 := by
  induction h with
  | nil => exact ⟨[], [], rfl, rfl, rfl, by rintro _ ⟨⟩⟩
  | @cons place c pattern t hc _ ih =>
    obtain ⟨hs, ds, hholes, hmap, hlength, hlt⟩ := ih
    cases place with
    | some e =>
      cases (show c = e from hc)
      refine ⟨hs, ds, ?_, hmap, ?_, hlt⟩
      · rw [holes, if_pos rfl, hholes]
      · rw [List.count_cons_of_ne (by rintro ⟨⟩), hlength]
    | none =>
      obtain ⟨d, hd, hvalue⟩ := digitValue_of_hex hc
      refine ⟨c :: hs, d :: ds, ?_, ?_, ?_, ?_⟩
      · rw [holes, hholes, Option.map_some]
      · rw [List.mapM_cons, hvalue, hmap]
        rfl
      · rw [List.count_cons_self, List.length_cons, hlength]
      · intro e he
        rcases List.mem_cons.mp he with rfl | he
        · exact hd
        · exact hlt e he

/-- What the digits and the dash of an accepted identifier have. -/
theorem validUuid_all {p : Char → Prop} (h : validUuid t = true)
    (hp : ∀ c, isAsciiHexdigit c = true → p c) (hdash : p '-') : ∀ c ∈ t, p c := by
  have hall := (Bool.and_eq_true_iff.mp h).2
  intro c hc
  obtain ⟨i, hi, rfl⟩ := List.getElem_of_mem hc
  have hplace := List.all_eq_true.mp hall (t[i], i)
    (List.mem_zipIdx_iff_getElem?.mpr (List.getElem?_eq_getElem hi))
  dsimp only at hplace
  split_ifs at hplace
  · rw [beq_iff_eq.mp hplace]
    exact hdash
  · exact hp t[i] hplace

theorem readUuid_of_valid (h : validUuid t = true) : ∃ id, readUuid t = some id := by
  obtain ⟨hbytes, hall⟩ := Bool.and_eq_true_iff.mp h
  have hascii : ∀ c ∈ t, c.utf8Size = 1 :=
    validUuid_all h (fun c hc => utf8Size_of_lt (toNat_lt_of_hex hc)) (by decide)
  have hlength : t.length = uuidPlaces.length := by
    rw [← byteLength_of_ascii hascii, of_decide_eq_true hbytes]
    decide
  obtain ⟨hs, ds, hholes, hmap, hcount, hlt⟩ := read_of_fits ((all_iff_fits hlength).mp hall)
  have hvalue : value 16 ds < 2 ^ 128 := by
    have hpow := Nat.ofDigits_lt_base_pow_length (b := 16) (l := ds.reverse) (by decide)
      fun d hd => hlt d (List.mem_reverse.mp hd)
    rw [List.length_reverse, hcount] at hpow
    exact lt_of_lt_of_eq hpow (by decide)
  refine ⟨⟨value 16 ds, hvalue⟩, ?_⟩
  unfold readUuid readNumeral
  rw [hholes, Option.bind_some, hmap]
  exact dif_pos hvalue

end uuids

/-! ## Times -/

def isLeap (year : Nat) : Bool := year % 4 = 0 ∧ (year % 100 ≠ 0 ∨ year % 400 = 0)

def monthDays (year month : Nat) : Nat :=
  if month = 2 then if isLeap year then 29 else 28
  else if month = 4 ∨ month = 6 ∨ month = 9 ∨ month = 11 then 30
  else 31

/-- A `timestamptz` by the calendar and the clock of UTC. -/
structure Timestamp where
  year : Nat
  month : Nat
  day : Nat
  hour : Nat
  minute : Nat
  second : Nat
  microsecond : Nat
  year_pos : 1 ≤ year
  month_mem : 1 ≤ month ∧ month ≤ 12
  day_mem : 1 ≤ day ∧ day ≤ monthDays year month
  hour_lt : hour < 24
  minute_lt : minute < 60
  second_lt : second < 60
  microsecond_lt : microsecond < 10 ^ 6
  deriving DecidableEq

/-- Times are ordered by their fields. -/
def Timestamp.key (t : Timestamp) : ℕ ×ₗ ℕ ×ₗ ℕ ×ₗ ℕ ×ₗ ℕ ×ₗ ℕ ×ₗ ℕ :=
  toLex (t.year, toLex (t.month, toLex (t.day, toLex (t.hour, toLex (t.minute,
    toLex (t.second, t.microsecond))))))

theorem Timestamp.key_injective : Function.Injective Timestamp.key := by
  intro s t h
  cases s
  cases t
  simp only [Timestamp.key, EmbeddingLike.apply_eq_iff_eq, Prod.mk.injEq] at h
  obtain ⟨rfl, rfl, rfl, rfl, rfl, rfl, rfl⟩ := h
  rfl

instance : LinearOrder Timestamp := LinearOrder.lift' Timestamp.key Timestamp.key_injective

def clockPlaces : List (Option Char) := places "-00-00T00:00:00.000000Z"

/-- The digits of a time after those of its year. -/
def Timestamp.clockDigits (t : Timestamp) : Text :=
  numeral 10 2 t.month ++ (numeral 10 2 t.day ++ (numeral 10 2 t.hour ++ (numeral 10 2 t.minute ++
    (numeral 10 2 t.second ++ numeral 10 6 t.microsecond))))

/-- `to_char(… AT TIME ZONE 'UTC', 'YYYY-MM-DD"T"HH24:MI:SS.US"Z"')`. Later years have more
digits. -/
def toChar (t : Timestamp) : Text :=
  (if t.year < 10 ^ 4 then numeral 10 4 t.year else (toString t.year).toList) ++
    fill clockPlaces t.clockDigits

section times
variable {t : Timestamp}

theorem length_clockDigits : t.clockDigits.length = clockPlaces.count none := by
  simp only [Timestamp.clockDigits, List.length_append, length_numeral]
  decide

/-- What the digits of a time and the characters between them have. -/
theorem toChar_all {p : Char → Prop} (ht : t.year < 10 ^ 4) (hp : ∀ d < 10, p (hexDigitChar d))
    (hplaces : ∀ c, some c ∈ clockPlaces → p c) : ∀ c ∈ toChar t, p c := by
  have hnumeral : ∀ w n, ∀ c ∈ numeral 10 w n, p c := fun w n => numeral_all (by decide) hp
  intro c hc
  unfold toChar at hc
  rw [if_pos ht] at hc
  rcases List.mem_append.mp hc with hc | hc
  · exact hnumeral _ _ c hc
  · refine fill_all hplaces (fun d hd => ?_) c hc
    unfold Timestamp.clockDigits at hd
    simp only [List.mem_append] at hd
    rcases hd with hd | hd | hd | hd | hd | hd <;> exact hnumeral _ _ d hd

theorem byteLength_toChar (ht : t.year < 10 ^ 4) : byteLength (toChar t) = 27 := by
  rw [byteLength_of_ascii (toChar_all ht (by decide) ?_)]
  · unfold toChar
    rw [if_pos ht, List.length_append, length_numeral, length_fill length_clockDigits]
    decide
  · have hall : ∀ place ∈ clockPlaces, place.all (fun c => c.utf8Size = 1) := by decide
    exact fun c hc => of_decide_eq_true (hall (some c) hc)

/-- `value` of the characters in front, and the rest. -/
def readFront (w : Nat) (t : Text) : Option (Nat × Text) :=
  (readNumeral 10 (t.take w)).map fun n => (n, t.drop w)

theorem readFront_numeral {w n : Nat} {rest : Text} (hn : n < 10 ^ w) :
    readFront w (numeral 10 w n ++ rest) = some (n, rest) := by
  unfold readFront
  rw [List.take_left' length_numeral, List.drop_left' length_numeral,
    readNumeral_numeral (by decide) (by decide) hn, Option.map_some]

def Timestamp.of (year month day hour minute second microsecond : Nat) : Option Timestamp :=
  if h : 0 < year ∧ (1 ≤ month ∧ month ≤ 12) ∧ (1 ≤ day ∧ day ≤ monthDays year month) ∧ hour < 24 ∧
      minute < 60 ∧ second < 60 ∧ microsecond < 10 ^ 6 then
    some ⟨year, month, day, hour, minute, second, microsecond, h.1, h.2.1, h.2.2.1, h.2.2.2.1,
      h.2.2.2.2.1, h.2.2.2.2.2.1, h.2.2.2.2.2.2⟩
  else none

/-- The time with the text, when its year has four digits. -/
def readTime (t : Text) : Option Timestamp := do
  let (year, t) ← readFront 4 t
  let t ← holes clockPlaces t
  let (month, t) ← readFront 2 t
  let (day, t) ← readFront 2 t
  let (hour, t) ← readFront 2 t
  let (minute, t) ← readFront 2 t
  let (second, t) ← readFront 2 t
  let microsecond ← readNumeral 10 t
  Timestamp.of year month day hour minute second microsecond

theorem Timestamp.of_fields :
    Timestamp.of t.year t.month t.day t.hour t.minute t.second t.microsecond = some t :=
  dif_pos ⟨t.year_pos, t.month_mem, t.day_mem, t.hour_lt, t.minute_lt, t.second_lt,
    t.microsecond_lt⟩

theorem readTime_toChar (ht : t.year < 10 ^ 4) : readTime (toChar t) = some t := by
  have hmonth := t.month_mem
  have hdays : monthDays t.year t.month ≤ 31 := by
    unfold monthDays
    split_ifs <;> decide
  have hday := t.day_mem
  have hhour := t.hour_lt
  have hminute := t.minute_lt
  have hsecond := t.second_lt
  unfold readTime toChar
  rw [if_pos ht, readFront_numeral ht, Option.bind_eq_bind, Option.bind_some]
  dsimp only
  rw [holes_fill length_clockDigits, Option.bind_eq_bind, Option.bind_some]
  unfold Timestamp.clockDigits
  simp only [Option.bind_eq_bind]
  rw [readFront_numeral (by omega), Option.bind_some]
  dsimp only
  rw [readFront_numeral (by omega), Option.bind_some]
  dsimp only
  rw [readFront_numeral (by omega), Option.bind_some]
  dsimp only
  rw [readFront_numeral (by omega), Option.bind_some]
  dsimp only
  rw [readFront_numeral (by omega), Option.bind_some]
  dsimp only
  rw [readNumeral_numeral (by decide) (by decide) t.microsecond_lt, Option.bind_some,
    Timestamp.of_fields]

end times
end FaultLane.RowTexts
