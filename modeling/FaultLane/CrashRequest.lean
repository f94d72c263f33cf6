import FaultLane.Fallible
import FaultLane.ByteReader
import FaultLane.LogTail
import FaultLane.CrashContext

set_option autoImplicit false

/-!
# The crash request decoder

One loop over the files of an archive serves the three entry points. The zlib layer
and the expansion-ratio guard are the byte source: they deliver the expanded bytes,
end or fail, and say what followed the compressed stream.
-/
namespace FaultLane.CrashRequest
open Fallible RustText LogTail CrashContext

/-- The first and third bound the compressed side and are the byte source's own. -/
structure CrashRequestLimits where
  compressedBytes : Nat
  expandedBytes : Nat
  expansionRatio : Nat
  files : Nat
  fileBytes : Nat
  crashContextBytes : Nat
  crashContextNodes : Nat
  minidumpBytes : Nat
  logTailBytes : Nat
  logTailLines : Nat

def CrashRequestLimits.default : CrashRequestLimits where
  compressedBytes := 64 * 1024 * 1024
  expandedBytes := 256 * 1024 * 1024
  expansionRatio := 200
  files := 128
  fileBytes := 128 * 1024 * 1024
  crashContextBytes := 4 * 1024 * 1024
  crashContextNodes := 100000
  minidumpBytes := 64 * 1024 * 1024
  logTailBytes := 64 * 1024
  logTailLines := 200

inductive CrashRequestFileKind where
  | crashContext
  | minidump
  | log
  | unknown
  deriving DecidableEq, Repr

structure CrashRequestFile where
  index : Nat
  name : String
  size : Nat
  kind : CrashRequestFileKind
  deriving DecidableEq, Repr

/-- The decoder is the one place a manifest is built, and it writes these two constants. -/
structure CrashRequestManifest where
  schemaVersion : Nat
  envelope : String
  directoryName : String
  archiveName : String
  compressedSize : Nat
  expandedSize : Nat
  files : List CrashRequestFile
  schemaVersion_eq : schemaVersion = 1
  envelope_eq : envelope = "cr1"

/-- The one supported schema and envelope. -/
def CrashRequestManifest.supported (directoryName archiveName : String)
    (compressedSize expandedSize : Nat) (files : List CrashRequestFile) :
    CrashRequestManifest where
  schemaVersion := 1
  envelope := "cr1"
  directoryName := directoryName
  archiveName := archiveName
  compressedSize := compressedSize
  expandedSize := expandedSize
  files := files
  schemaVersion_eq := rfl
  envelope_eq := rfl

structure CrashRequestLog where
  name : String
  tail : ProjectLogTail

structure CrashRequestContents where
  manifest : CrashRequestManifest
  crashContext : Option String
  minidump : Option (List UInt8)
  log : Option CrashRequestLog

inductive CrashRequestErrorKind where
  | readFailed
  | compressedTooLarge
  | invalidCompression
  | expandedTooLarge
  | expansionRatioExceeded
  | unsupportedEnvelope
  | invalidHeader
  | tooManyFiles
  | fileTooLarge
  | unsafeFilename
  | duplicateCriticalFile
  | invalidCrashContextUtf8
  | invalidCrashContext
  | truncatedArchive
  | trailingData
  | expandedSizeMismatch
  | fileCountMismatch
  deriving DecidableEq, Repr

structure CrashRequestError where
  kind : CrashRequestErrorKind
  xmlError : Option ParseError
  deriving DecidableEq, Repr

def CrashRequestError.new (kind : CrashRequestErrorKind) : CrashRequestError := ⟨kind, none⟩

def CrashRequestError.xml (error : ParseError) : CrashRequestError :=
  ⟨.invalidCrashContext, some error⟩

abbrev Decoded (α : Type) := Except CrashRequestError α

def reject {α : Type} (kind : CrashRequestErrorKind) : Decoded α := .error (.new kind)

/-- The expanded side of the stream with its limit. A failure of the source is already the
error kind that `map_read_error` gives it. -/
structure ExpandedReader where
  inner : ByteReader.Source CrashRequestErrorKind
  limit : Nat
  bytesRead : Nat

/-- At the limit one more byte is asked for, to tell an end from an excess. -/
def ExpandedReader.read (r : ExpandedReader) (bufferLength : Nat) :
    Except CrashRequestErrorKind (List UInt8 × ExpandedReader) :=
  if bufferLength = 0 then .ok ([], r)
  else if r.bytesRead = r.limit then
    match r.inner.read 1 with
    | .error kind => .error kind
    | .ok ([], inner) => .ok ([], { r with inner := inner })
    | .ok (_ :: _, _) => .error .expandedTooLarge
  else
    let allowed := min (r.limit - r.bytesRead) bufferLength
    match r.inner.read allowed with
    | .error kind => .error kind
    | .ok (bytes, inner) =>
      .ok (bytes, { r with inner := inner, bytesRead := r.bytesRead + bytes.length })

/-- `read_exact`; the end of the stream inside it is a truncated archive. -/
def readExact (r : ExpandedReader) (count : Nat) : Decoded (List UInt8 × ExpandedReader) :=
  match ByteReader.readExact ExpandedReader.read .truncatedArchive count r with
  | .error kind => reject kind
  | .ok found => .ok found

/-- The unsigned value of little-endian bytes. -/
def leValue : List UInt8 → Nat
  | [] => 0
  | b :: bytes => b.toNat + 256 * leValue bytes

def i32OfLeBytes (bytes : List UInt8) : Int :=
  let value := leValue bytes
  if value < 2 ^ 31 then value else (value : Int) - 2 ^ 32

def readI32 (r : ExpandedReader) : Decoded (Int × ExpandedReader) := do
  let (bytes, r) ← readExact r 4
  return (i32OfLeBytes bytes, r)

def readCount (r : ExpandedReader) : Decoded (Nat × ExpandedReader) := do
  let (value, r) ← readI32 r
  refuse (value < 0) (.new .invalidHeader)
  return (value.toNat, r)

def ansiFieldBytes : Nat := 260

def safeLeafName (value : String) : Bool :=
  let last := value.toList.getLast?
  value != "" && value != "." && value != ".." && last != some '.' && last != some ' ' &&
    (utf8 value).all fun byte =>
      0x20 ≤ byte.toNat && byte.toNat ≤ 0x7e && !(utf8 "<>:\"/\\|?*").contains byte

def readAnsiField (r : ExpandedReader) : Decoded (String × ExpandedReader) := do
  let (length, r) ← readI32 r
  refuse (length ≠ (ansiFieldBytes : Int)) (.new .invalidHeader)
  let (bytes, r) ← readExact r ansiFieldBytes
  let valueLength := (bytes.findIdx? (· == 0)).getD bytes.length
  refuse ((bytes.drop valueLength).any (· != 0)) (.new .invalidHeader)
  let value ← okOr (fromUtf8 (bytes.take valueLength)) (.new .unsafeFilename)
  refuse (!safeLeafName value) (.new .unsafeFilename)
  return (value, r)

/-- `Path::extension` of one component: after the last dot, unless the dot begins the name. -/
def pathExtension (name : List Char) : Option (List Char) :=
  let after := (name.reverse.takeWhile (· != '.')).reverse
  let before := name.take (name.length - after.length - 1)
  if after.length = name.length ∨ before = [] then none else some after

def hasExtension (name : String) (extension : String) : Bool :=
  (pathExtension name.toList).any (eqIgnoreAsciiCase · extension.toList)

def fileKind (name : String) : CrashRequestFileKind :=
  if eqIgnoreAsciiCase name.toList "crashcontext.runtime-xml".toList then .crashContext
  else if hasExtension name "dmp" then .minidump
  else if hasExtension name "log" then .log
  else .unknown

def readBufferBytes : Nat := 8 * 1024

/-- Each round takes at least one byte off `remaining`. -/
def discardLoop : Nat → Nat → ExpandedReader → Decoded ExpandedReader
  | 0, _, r => .ok r
  | fuel + 1, remaining, r =>
    if remaining = 0 then .ok r
    else do
      let count := min remaining readBufferBytes
      let (_, r) ← readExact r count
      discardLoop fuel (remaining - count) r

def discard (r : ExpandedReader) (size : Nat) : Decoded ExpandedReader := discardLoop size size r

def readBytes (r : ExpandedReader) (size : Nat) : Decoded (List UInt8 × ExpandedReader) :=
  readExact r size

def logTailLoop (retain : Nat) :
    Nat → Nat → List UInt8 → ExpandedReader → Decoded (List UInt8 × ExpandedReader)
  | 0, _, suffix, r => .ok (suffix, r)
  | fuel + 1, remaining, suffix, r =>
    if remaining = 0 then .ok (suffix, r)
    else do
      let count := min remaining readBufferBytes
      let (bytes, r) ← readExact r count
      let suffix := suffix ++ bytes
      logTailLoop retain fuel (remaining - count) (suffix.drop (suffix.length - retain)) r

def readLogTail (r : ExpandedReader) (size maxBytes maxLines : Nat) :
    Decoded (ProjectLogTail × ExpandedReader) := do
  let retain := min (maxBytes + 4) (2 ^ 64 - 1)
  let (suffix, r) ← logTailLoop retain size size [] r
  return (LogTail.extract suffix maxBytes maxLines, r)

section Decoding
variable (xmlParser : XmlParser) (limits : CrashRequestLimits)
  (retainContents validateCrashContext : Bool)

def readCrashContext (r : ExpandedReader) (size : Nat) : Decoded (String × ExpandedReader) := do
  refuse (limits.crashContextBytes < size) (.new .fileTooLarge)
  let (bytes, r) ← readBytes r size
  let xml ← okOr (fromUtf8 bytes) (.new .invalidCrashContextUtf8)
  let _ ← (parseCrashContext xmlParser limits.crashContextNodes xml).mapError .xml
  return (xml, r)

/-- What the loop over the files has gathered. -/
structure InspectedFiles where
  files : List CrashRequestFile
  criticalFiles : List CrashRequestFileKind
  filenames : List (List Char)
  crashContext : Option String
  minidump : Option (List UInt8)
  log : Option CrashRequestLog

def InspectedFiles.empty : InspectedFiles := ⟨[], [], [], none, none, none⟩

def readContents (state : InspectedFiles) (name : String) (kind : CrashRequestFileKind)
    (size : Nat) (r : ExpandedReader) : Decoded (InspectedFiles × ExpandedReader) :=
  match kind with
  | .crashContext =>
    if validateCrashContext then do
      let (xml, r) ← readCrashContext xmlParser limits r size
      return (if retainContents then { state with crashContext := some xml } else state, r)
    else do
      refuse (limits.crashContextBytes < size) (.new .fileTooLarge)
      let r ← discard r size
      return (state, r)
  | .minidump =>
    if retainContents then do
      refuse (limits.minidumpBytes < size) (.new .fileTooLarge)
      let (bytes, r) ← readBytes r size
      return ({ state with minidump := some bytes }, r)
    else do
      let r ← discard r size
      return (state, r)
  | .log =>
    if retainContents && state.log.isNone then do
      let (tail, r) ← readLogTail r size limits.logTailBytes limits.logTailLines
      return ({ state with log := some ⟨name, tail⟩ }, r)
    else do
      let r ← discard r size
      return (state, r)
  | .unknown => do
    let r ← discard r size
    return (state, r)

def isCritical : CrashRequestFileKind → Bool
  | .crashContext | .minidump => true
  | _ => false

def InspectedFiles.claim (state : InspectedFiles) (name : String) (kind : CrashRequestFileKind) :
    Decoded InspectedFiles := do
  refuse (isCritical kind ∧ kind ∈ state.criticalFiles) (.new .duplicateCriticalFile)
  refuse (toAsciiLowercase name.toList ∈ state.filenames) (.new .duplicateCriticalFile)
  return { state with
    criticalFiles := if isCritical kind then kind :: state.criticalFiles else state.criticalFiles
    filenames := toAsciiLowercase name.toList :: state.filenames }

def inspectFile (expectedIndex : Nat) (state : InspectedFiles) (r : ExpandedReader) :
    Decoded (InspectedFiles × ExpandedReader) := do
  let (index, r) ← readCount r
  refuse (index ≠ expectedIndex) (.new .fileCountMismatch)
  let (name, r) ← readAnsiField r
  let kind := fileKind name
  let state ← state.claim name kind
  let (size, r) ← readCount r
  refuse (limits.fileBytes < size) (.new .fileTooLarge)
  let (state, r) ←
    readContents xmlParser limits retainContents validateCrashContext state name kind size r
  return ({ state with files := state.files ++ [⟨index, name, size, kind⟩] }, r)

/-- The loop over the indexes still to come. -/
def inspectFiles : Nat → Nat → InspectedFiles → ExpandedReader →
    Decoded (InspectedFiles × ExpandedReader)
  | 0, _, state, r => .ok (state, r)
  | remaining + 1, expectedIndex, state, r => do
    let (state, r) ←
      inspectFile xmlParser limits retainContents validateCrashContext expectedIndex state r
    inspectFiles remaining (expectedIndex + 1) state r

/-- A request body as the decoder sees it: the expanded bytes, the size of the compressed
stream, and what its end is followed by. -/
structure CrashRequestStream where
  expanded : ByteReader.Source CrashRequestErrorKind
  compressedSize : Nat
  trailing : Except CrashRequestErrorKind (List UInt8)

def envelopeMagic : List UInt8 := utf8 "CR1"

def readExtra (r : ExpandedReader) : Decoded (List UInt8 × ExpandedReader) :=
  match r.read 1 with
  | .error kind => reject kind
  | .ok found => .ok found

def finishStream (input : CrashRequestStream) : Decoded Unit :=
  match input.trailing with
  | .error kind => reject kind
  | .ok [] => .ok ()
  | .ok (_ :: _) => reject .trailingData

def decodeCrashRequest (input : CrashRequestStream) : Decoded CrashRequestContents := do
  let r : ExpandedReader := ⟨input.expanded, limits.expandedBytes, 0⟩
  let (magic, r) ← readExact r envelopeMagic.length
  refuse (magic ≠ envelopeMagic) (.new .unsupportedEnvelope)
  let (directoryName, r) ← readAnsiField r
  let (archiveName, r) ← readAnsiField r
  let (reportedExpandedSize, r) ← readCount r
  refuse (limits.expandedBytes < reportedExpandedSize) (.new .expandedTooLarge)
  let (reportedFileCount, r) ← readCount r
  refuse (limits.files < reportedFileCount) (.new .tooManyFiles)
  let (contents, r) ← inspectFiles xmlParser limits retainContents validateCrashContext
    reportedFileCount 0 .empty r
  let (extra, r) ← readExtra r
  refuse (extra ≠ []) (.new .expandedSizeMismatch)
  refuse (r.bytesRead ≠ reportedExpandedSize) (.new .expandedSizeMismatch)
  finishStream input
  return {
    manifest :=
      { schemaVersion := 1
        envelope := "cr1"
        directoryName := directoryName
        archiveName := archiveName
        compressedSize := input.compressedSize
        expandedSize := r.bytesRead
        files := contents.files
        schemaVersion_eq := rfl
        envelope_eq := rfl }
    crashContext := contents.crashContext
    minidump := contents.minidump
    log := contents.log }

def inspectCrashRequest (input : CrashRequestStream) : Decoded CrashRequestManifest := do
  let contents ← decodeCrashRequest xmlParser limits false true input
  return contents.manifest

def inspectCrashEnvelope (input : CrashRequestStream) : Decoded CrashRequestManifest := do
  let contents ← decodeCrashRequest xmlParser limits false false input
  return contents.manifest

def readCrashRequest (input : CrashRequestStream) : Decoded CrashRequestContents :=
  decodeCrashRequest xmlParser limits true true input

end Decoding

section Serialization
open Json

def CrashRequestFileKind.text : CrashRequestFileKind → String
  | .crashContext => "crash_context"
  | .minidump => "minidump"
  | .log => "log"
  | .unknown => "unknown"

def CrashRequestFile.toJson (f : CrashRequestFile) : Json :=
  ofFields [("index", ofNat f.index), ("name", .string f.name), ("size", ofNat f.size),
    ("kind", .string f.kind.text)]

def CrashRequestManifest.toJson (m : CrashRequestManifest) : Json :=
  ofFields
    [("schema_version", ofNat m.schemaVersion), ("envelope", .string m.envelope),
      ("directory_name", .string m.directoryName), ("archive_name", .string m.archiveName),
      ("compressed_size", ofNat m.compressedSize), ("expanded_size", ofNat m.expandedSize),
      ("files", .array (m.files.map CrashRequestFile.toJson))]

def CrashRequestLog.toJson (l : CrashRequestLog) : Json :=
  ofFields [("name", .string l.name),
    ("tail", ofFields [("text", .string l.tail.text), ("truncated", .bool l.tail.truncated),
      ("invalid_utf8", .bool l.tail.invalidUtf8)])]

end Serialization
end FaultLane.CrashRequest
