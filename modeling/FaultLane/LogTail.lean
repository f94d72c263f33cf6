import FaultLane.RustText

set_option autoImplicit false

/-!
# The tail of a project log

Offsets into the decoded text are counted in scalar values where the source counts
bytes; every offset the source takes there is a character boundary.
-/
namespace FaultLane.LogTail
open RustText

structure ProjectLogTail where
  text : String
  truncated : Bool
  invalidUtf8 : Bool
  deriving DecidableEq, Repr

/-- `std::str::from_utf8`. -/
def fromUtf8 (bytes : List UInt8) : Option String := String.fromUTF8? ⟨bytes.toArray⟩

theorem utf8_of_fromUtf8 {bytes : List UInt8} {s : String} (h : fromUtf8 bytes = some s) :
    utf8 s = bytes := by
  unfold fromUtf8 String.fromUTF8? at h
  split_ifs at h with hv
  cases h
  rfl

theorem fromUtf8_utf8 (s : String) : fromUtf8 (utf8 s) = some s := by
  have hb : (⟨(utf8 s).toArray⟩ : ByteArray) = s.toUTF8 := by
    apply ByteArray.ext
    simp [utf8]
  unfold fromUtf8 String.fromUTF8?
  rw [hb, String.toUTF8_eq_toByteArray, dif_pos s.isValidUTF8]
  rfl

def isContinuation (b : UInt8) : Bool := b.toNat / 64 == 2

/-- The bytes of the sequence that `lead` begins, and whether it is a whole character:
a broken one ends before its first byte that cannot continue it. -/
def sequenceAt (lead : UInt8) (rest : List UInt8) : Nat × Bool :=
  let second := (rest.headD 0).toNat
  let b := lead.toNat
  let continues := fun i => isContinuation (rest.getD i 0)
  if b < 0x80 then (1, true)
  else if 0xC2 ≤ b ∧ b ≤ 0xDF then if continues 0 then (2, true) else (1, false)
  else if 0xE0 ≤ b ∧ b ≤ 0xEF then
    let low := if b = 0xE0 then 0xA0 else 0x80
    let high := if b = 0xED then 0x9F else 0xBF
    if low ≤ second ∧ second ≤ high then if continues 1 then (3, true) else (2, false)
    else (1, false)
  else if 0xF0 ≤ b ∧ b ≤ 0xF4 then
    let low := if b = 0xF0 then 0x90 else 0x80
    let high := if b = 0xF4 then 0x8F else 0xBF
    if low ≤ second ∧ second ≤ high then
      if continues 1 then if continues 2 then (4, true) else (3, false) else (2, false)
    else (1, false)
  else (1, false)

/-- The scalar value of a whole sequence. -/
def sequenceChar (lead : UInt8) (rest : List UInt8) : Char :=
  let low := fun i => (rest.getD i 0).toNat % 64
  let b := lead.toNat
  if b < 0x80 then Char.ofNat b
  else if b < 0xE0 then Char.ofNat (b % 32 * 64 + low 0)
  else if b < 0xF0 then Char.ofNat ((b % 16 * 64 + low 0) * 64 + low 1)
  else Char.ofNat (((b % 8 * 64 + low 0) * 64 + low 1) * 64 + low 2)

/-- `String::from_utf8_lossy`, with the bytes still to be passed over. -/
def fromUtf8LossyFrom : List UInt8 → Nat → List Char
  | [], _ => []
  | _ :: rest, skip + 1 => fromUtf8LossyFrom rest skip
  | lead :: rest, 0 =>
    match sequenceAt lead rest with
    | (width, true) => sequenceChar lead rest :: fromUtf8LossyFrom rest (width - 1)
    | (width, false) => Char.ofNat 0xFFFD :: fromUtf8LossyFrom rest (width - 1)

def fromUtf8Lossy (bytes : List UInt8) : List Char := fromUtf8LossyFrom bytes 0

/-- The first of up to three candidates before `start` whose sequence reaches over it. -/
def nextUtf8Boundary (input : List UInt8) (start : Nat) : Nat :=
  if start = 0 ∨ input.length ≤ start ∨ !isContinuation (input.getD start 0) then start
  else
    let ends := (List.range' (start - 3) (start - (start - 3))).filterMap fun candidate =>
      let lead := (input.getD candidate 0).toNat
      let width :=
        if 0xC2 ≤ lead ∧ lead ≤ 0xDF then 2
        else if 0xE0 ≤ lead ∧ lead ≤ 0xEF then 3
        else if 0xF0 ≤ lead ∧ lead ≤ 0xF4 then 4
        else 0
      let stop := candidate + width
      if width ≠ 0 ∧ start < stop ∧ stop ≤ input.length ∧
          (fromUtf8 ((input.drop candidate).take width)).isSome then some stop
      else none
    ends.headD start

def utf8Length (value : List Char) : Nat := (value.map Char.utf8Size).sum

/-- Characters to drop until the rest fits. -/
def suffixStart (value : List Char) (maxBytes : Nat) : Nat :=
  match value with
  | [] => 0
  | c :: rest => if utf8Length (c :: rest) ≤ maxBytes then 0 else suffixStart rest maxBytes + 1

/-- Where the last `maxLines` lines begin; the scan is over the reversed text, `lines` counts
the lines it is in, and a line feed that ends the text ends its last line. -/
def lastLinesScan (maxLines : Nat) : List Char → Nat → Nat
  | [], _ => 0
  | c :: before, lines =>
    if c = '\n' then
      if maxLines < lines + 1 then (c :: before).length
      else lastLinesScan maxLines before (lines + 1)
    else lastLinesScan maxLines before lines

def lastLinesStart (value : List Char) (maxLines : Nat) : Nat :=
  let scanned := if value.getLast? = some '\n' then value.dropLast else value
  lastLinesScan maxLines scanned.reverse 1

def extract (input : List UInt8) (maxBytes maxLines : Nat) : ProjectLogTail :=
  if input = [] then ⟨"", false, false⟩
  else if maxBytes = 0 ∨ maxLines = 0 then ⟨"", true, false⟩
  else
    let requestedStart := input.length - maxBytes
    let sourceStart := nextUtf8Boundary input requestedStart
    let source := input.drop sourceStart
    let decoded := fromUtf8Lossy source
    let byteStart := suffixStart decoded maxBytes
    let byteBounded := decoded.drop byteStart
    let startsMidLine :=
      if 0 < byteStart then decoded[byteStart - 1]? != some '\n'
      else decide (0 < sourceStart) && input[sourceStart - 1]? != some 0x0A
    let partialLineStart :=
      if startsMidLine then
        match byteBounded.findIdx? (· == '\n') with
        | some index => if index + 1 < byteBounded.length then index + 1 else 0
        | none => 0
      else 0
    let completeLines := byteBounded.drop partialLineStart
    let lineStart := lastLinesStart completeLines maxLines
    { text := String.ofList (completeLines.drop lineStart)
      truncated := decide (0 < sourceStart ∨ 0 < byteStart ∨ 0 < partialLineStart ∨ 0 < lineStart)
      invalidUtf8 := (fromUtf8 source).isNone }

end FaultLane.LogTail
