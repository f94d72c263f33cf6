import FaultLane.RustText

set_option autoImplicit false

/-!
# Normalized texts

The texts that fingerprint components are made of: tokens, paths, modules, functions
and the templates of messages.
-/
namespace FaultLane.GroupingText
open RustText

def maxComponentChars : Nat := 512
def maxErrorInputChars : Nat := 4096
def maxErrorTemplateChars : Nat := 1024
def maxTitleChars : Nat := 160

def bounded (value : Text) (maximum : Nat) : Text := value.take maximum

def endsWith (suffix value : Text) : Bool := suffix.isSuffixOf value

def collapseStep (normalized : Text) (c : Char) : Text :=
  if isWhitespace c then
    if !normalized.isEmpty && !endsWith [' '] normalized then normalized ++ [' '] else normalized
  else if !isControl c then normalized ++ [c]
  else normalized

def collapseWhitespace (value : Text) : Text := trim (value.foldl collapseStep [])

def normalizeFunction (value : Text) : Text := bounded (collapseWhitespace value) maxComponentChars

def replaceBackslashes (value : Text) : Text := value.map fun c => if c == '\\' then '/' else c

def normalizePath (value : Text) : Text :=
  bounded (toAsciiLowercase (trim (replaceBackslashes value))) maxComponentChars

def normalizeToken (value : Text) : Text :=
  bounded (toAsciiLowercase (collapseWhitespace value)) maxComponentChars

def isPathSeparator (c : Char) : Bool := c == '/' || c == '\\'

def normalizeModule (value : Text) : Text :=
  let part := ((rsplit isPathSeparator value).find? (!·.isEmpty)).getD value
  let leaf := toAsciiLowercase (trim part)
  let value := ((stripSuffix ".dll".toList leaf).or (stripSuffix ".exe".toList leaf)).getD leaf
  bounded value maxComponentChars

/-- `format!("0x{number:x}")`. -/
def formatLowerHex (number : Nat) : Text := "0x".toList ++ Nat.toDigits 16 number

def normalizeRelative (value : Text) : Option Text := do
  let value := trim value
  let digits ← (stripPrefix "0x".toList value).or (stripPrefix "0X".toList value)
  let number ← u64FromHex digits
  return formatLowerHex number

/-- `count` hexadecimal digits, and what follows them. -/
def hexDigits : Nat → Text → Option Text
  | 0, s => some s
  | count + 1, c :: s => if isAsciiHexdigit c then hexDigits count s else none
  | _ + 1, [] => none

def guidGroups : List Nat → Text → Bool
  | [], _ => true
  | [last], s => (hexDigits last s).isSome
  | length :: groups, s =>
    match hexDigits length s with
    | some ('-' :: rest) => guidGroups groups rest
    | _ => false

/-- The length of the GUID that a text begins with. -/
def guidEnd (s : Text) : Option Nat := if guidGroups [8, 4, 4, 4, 12] s then some 36 else none

def datePattern : List (Char → Bool) :=
  [isAsciiDigit, isAsciiDigit, isAsciiDigit, isAsciiDigit, (· == '-'), isAsciiDigit, isAsciiDigit,
    (· == '-'), isAsciiDigit, isAsciiDigit]

def startsWithPattern : List (Char → Bool) → Text → Bool
  | [], _ => true
  | p :: pattern, c :: s => p c && startsWithPattern pattern s
  | _ :: _, [] => false

def isTimestampChar (c : Char) : Bool := isAsciiDigit c || ":.+-Zz".toList.contains c

def timeLength : Text → Nat
  | [] => 0
  | c :: s => if "Tt ".toList.contains c then 1 + (s.takeWhile isTimestampChar).length else 0

def timestampEnd (s : Text) : Option Nat :=
  if startsWithPattern datePattern s then some (10 + timeLength (s.drop 10)) else none

def addressEnd : Text → Option Nat
  | '0' :: x :: digit :: s =>
    if (x == 'x' || x == 'X') && isAsciiHexdigit digit then
      some (3 + (s.takeWhile isAsciiHexdigit).length)
    else none
  | _ => none

def pushTemplate (output placeholder : Text) : Text :=
  if endsWith placeholder output then output else output ++ placeholder

/-- The placeholder of the volatile value that a text begins with, and the value's length. -/
def volatileAt (s : Text) : Option (Text × Nat) :=
  match guidEnd s with
  | some length => some ("<guid>".toList, length)
  | none =>
    match timestampEnd s with
    | some length => some ("<timestamp>".toList, length)
    | none =>
      match addressEnd s with
      | some length => some ("<address>".toList, length)
      | none =>
        if startsWithPattern [isAsciiDigit] s then
          some ("<number>".toList, (s.takeWhile isAsciiDigit).length)
        else none

def templateChar (output : Text) (c : Char) : Text :=
  if isWhitespace c then
    if !output.isEmpty && !endsWith [' '] output then output ++ [' '] else output
  else if isControl c then output
  else output ++ [c.toLower]

/-- `skip` counts the characters before the source's index. -/
def templateLoop : Text → Nat → Text → Text
  | [], _, output => output
  | _ :: s, skip + 1, output => templateLoop s skip output
  | c :: s, 0, output =>
    match volatileAt (c :: s) with
    | some (placeholder, length) => templateLoop s (length - 1) (pushTemplate output placeholder)
    | none => templateLoop s 0 (templateChar output c)

def normalizeTemplate (value : Text) : Text :=
  bounded (trim (templateLoop (bounded value maxErrorInputChars) 0 [])) maxErrorTemplateChars

def genericWords : List Text :=
  ["address", "allocate", "allocation", "assert", "assertion", "at", "being", "byte", "bytes",
    "check", "condition", "crash", "crashed", "d3d", "device", "dxgi", "ensure", "error", "failed",
    "failure", "fatal", "for", "gpu", "guid", "line", "lost", "memory", "number", "of", "oom",
    "out", "removed", "timeout", "timestamp", "unknown"].map String.toList

def hasSpecificTemplateToken (unicode : Char → Bool) (value : Text) : Bool :=
  ((split (fun c => !isAlphanumeric unicode c) value).filter (!·.isEmpty)).any
    (!genericWords.contains ·)

def sanitizeChar (c : Char) : Option Char :=
  if "<>&'\"".toList.contains c then some '_' else if isControl c then none else some c

def sanitizeTitle (value : Text) : Text :=
  let title := ((collapseWhitespace value).take maxTitleChars).filterMap sanitizeChar
  if title.isEmpty then "Crash".toList else title

end FaultLane.GroupingText
