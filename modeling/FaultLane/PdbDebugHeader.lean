import FaultLane.DumpSymbolication
import FaultLane.PagedBytes

set_option autoImplicit false

/-!
# The debug header of a PDB file

A PDB file is divided into pages. Its header lists the pages of a block map, which lists the
pages of a directory, which lists the sizes and the pages of all streams. The machine and the
age of the file stand at the beginning of stream 3.
-/
namespace FaultLane.PdbDebugHeader
open DumpSymbolication PagedBytes

/-! ## Outcomes -/

inductive Fault where
  | divisionByZero
  | outOfRange
  deriving DecidableEq, Repr

/-- A result, an error code of the code, or a fault that the code does not handle. -/
inductive Outcome (α : Type) where
  | ok (value : α)
  | err (code : ArtifactErrorCode)
  | fault (fault : Fault)
  deriving DecidableEq, Repr

variable {α β : Type}

def Outcome.bind : Outcome α → (α → Outcome β) → Outcome β
  | .ok value, f => f value
  | .err code, _ => .err code
  | .fault reason, _ => .fault reason

instance : Monad Outcome where
  pure := .ok
  bind := Outcome.bind

instance : LawfulMonad Outcome := LawfulMonad.mk' _
  (by intro _ x; cases x <;> rfl)
  (by intros; rfl)
  (by intro _ _ _ x _ _; cases x <;> rfl)

/-! ## Arithmetic and reads -/

/-- Both `usize` and `u64` have 64 bits. -/
def machineBits : Nat := 64

def checkedAdd (a b : Nat) : Outcome Nat :=
  if a + b < 2 ^ machineBits then .ok (a + b) else .err .malformed

def checkedMul (a b : Nat) : Outcome Nat :=
  if a * b < 2 ^ machineBits then .ok (a * b) else .err .malformed

def saturatingAdd (a b : Nat) : Nat := min (a + b) (2 ^ machineBits - 1)

def divide (a b : Nat) : Outcome Nat :=
  if b = 0 then .fault .divisionByZero else .ok (a / b)

/-- `slice::get` on a range. -/
def getRange (bytes : List UInt8) (start stop : Nat) : Option (List UInt8) :=
  if start ≤ stop ∧ stop ≤ bytes.length then some ((bytes.drop start).take (stop - start))
  else none

def readUintAt (width : Nat) (bytes : List UInt8) (offset : Nat) : Outcome Nat :=
  match getRange bytes offset (saturatingAdd offset width) with
  | some value => if value.length = width then .ok (leValue value) else .err .malformed
  | none => .err .malformed

def readU32At (bytes : List UInt8) (offset : Nat) : Outcome Nat := readUintAt 4 bytes offset

def readU16At (bytes : List UInt8) (offset : Nat) : Outcome Nat := readUintAt 2 bytes offset

/-- A read past the end of the file is a fault here, where `read_exact` gives an error. -/
def readExact (file : List UInt8) (offset bytes : Nat) : Outcome (List UInt8) :=
  if offset + bytes ≤ file.length then .ok ((file.drop offset).take bytes)
  else .fault .outOfRange

/-! ## The parser -/

def maxMetadataReadBytes : Nat := 16 * 1024 * 1024

def maxPdbPageBytes : Nat := 64 * 1024

def pdbHeaderBytes : Nat := 4096

def pdbRawHeaderBytes : Nat := 52

def pdbDbiHeaderBytes : Nat := 64

def pdbDbiStream : Nat := 3

def u32Max : Nat := 2 ^ 32 - 1

/-- `Microsoft C/C++ MSF 7.00`, carriage return, line feed, `0x1A`, `DS` and three zeros. -/
def pdbMagic : List UInt8 :=
  [77, 105, 99, 114, 111, 115, 111, 102, 116, 32, 67, 47, 67, 43, 43, 32, 77, 83, 70, 32, 55, 46,
    48, 48, 13, 10, 26, 68, 83, 0, 0, 0]

structure PdbLayout where
  pageSize : Nat
  pagesUsed : Nat
  directoryBytes : Nat
  fileBytes : Nat
  deriving DecidableEq, Repr

def parsePdbLayout (header : List UInt8) (fileBytes : Nat) : Outcome PdbLayout := do
  if getRange header 0 pdbMagic.length ≠ some pdbMagic then .err .malformed
  else
    let pageSize ← readU32At header 32
    let pagesUsed ← readU32At header 40
    let directoryBytes ← readU32At header 44
    if ¬ pageSize.isPowerOfTwo ∨ ¬ (0x100 ≤ pageSize ∧ pageSize ≤ maxPdbPageBytes) ∨
        pagesUsed = 0 ∨ maxMetadataReadBytes < directoryBytes then .err .malformed
    else
      let describedBytes ← checkedMul pagesUsed pageSize
      if fileBytes < describedBytes then .err .malformed
      else .ok ⟨pageSize, pagesUsed, directoryBytes, fileBytes⟩

def pagesNeeded (bytes pageSize : Nat) : Outcome Nat := do
  let bytes ← checkedAdd bytes (pageSize - 1)
  divide bytes pageSize

def readPageNumber (bytes : List UInt8) (offset pagesUsed : Nat) : Outcome Nat := do
  let page ← readU32At bytes offset
  if page = 0 ∨ pagesUsed ≤ page then .err .malformed else .ok page

def readFileBytes (file : List UInt8) (offset bytes fileBytes : Nat) :
    Outcome (List UInt8) := do
  let stop ← checkedAdd offset bytes
  if fileBytes < stop then .err .malformed else readExact file offset bytes

def readPdbPages (file : List UInt8) (pages : List Nat) (pageSize bytes fileBytes : Nat) :
    Outcome (List UInt8) := do
  let requiredPages ← pagesNeeded bytes pageSize
  if pages.length < requiredPages then .err .malformed
  else
    (pages.take requiredPages).foldlM (fun output page => do
      let remaining := bytes - output.length
      let chunkBytes := min remaining pageSize
      let pageOffset ← checkedMul page pageSize
      let chunk ← readFileBytes file pageOffset chunkBytes fileBytes
      pure (output ++ chunk)) []

def readPdbDirectory (file header : List UInt8) (layout : PdbLayout) :
    Outcome (List UInt8) := do
  let directoryPages ← pagesNeeded layout.directoryBytes layout.pageSize
  let blockMapBytes ← checkedMul directoryPages 4
  let blockMapPages ← pagesNeeded blockMapBytes layout.pageSize
  let blockMapEnd ← checkedAdd pdbRawHeaderBytes (← checkedMul blockMapPages 4)
  if header.length < blockMapEnd then .err .malformed
  else
    let blockMap ← (List.range blockMapPages).mapM fun index => do
      let offset ← checkedAdd pdbRawHeaderBytes (← checkedMul index 4)
      readPageNumber header offset layout.pagesUsed
    let directoryPageBytes ←
      readPdbPages file blockMap layout.pageSize blockMapBytes layout.fileBytes
    let streamTablePages ← (List.range directoryPages).mapM fun index => do
      let offset ← checkedMul index 4
      readPageNumber directoryPageBytes offset layout.pagesUsed
    readPdbPages file streamTablePages layout.pageSize layout.directoryBytes layout.fileBytes

def streamSize (directory : List UInt8) (stream : Nat) : Outcome Nat := do
  let offset ← checkedAdd 4 (← checkedMul stream 4)
  readU32At directory offset

/-- `(first..stop).step_by(4)`. -/
def stepByFour (first stop : Nat) : List Nat :=
  (List.range ((stop - first + 3) / 4)).map fun index => first + 4 * index

def pdbStreamFirstPage (directory : List UInt8) (layout : PdbLayout) : Outcome Nat := do
  let streamCount ← readU32At directory 0
  if streamCount ≤ pdbDbiStream then .err .malformed
  else
    let streamPagesOffset ← checkedAdd 4 (← checkedMul streamCount 4)
    if directory.length < streamPagesOffset then .err .malformed
    else
      let precedingPages ← (List.range pdbDbiStream).foldlM (fun precedingPages stream => do
        let size ← streamSize directory stream
        if size ≠ u32Max then checkedAdd precedingPages (← pagesNeeded size layout.pageSize)
        else pure precedingPages) 0
      let debugStreamBytes ← streamSize directory pdbDbiStream
      if debugStreamBytes = u32Max ∨ debugStreamBytes < pdbDbiHeaderBytes then .err .malformed
      else
        let debugPages ← pagesNeeded debugStreamBytes layout.pageSize
        let firstDebugPageOffset ← checkedAdd streamPagesOffset (← checkedMul precedingPages 4)
        let debugPageListEnd ← checkedAdd firstDebugPageOffset (← checkedMul debugPages 4)
        if directory.length < debugPageListEnd then .err .malformed
        else
          let debugPage ← readPageNumber directory firstDebugPageOffset layout.pagesUsed
          (stepByFour firstDebugPageOffset debugPageListEnd).forM fun offset => do
            let _ ← readPageNumber directory offset layout.pagesUsed
          pure debugPage

/-- The machine and the age. -/
def readPdbDebugHeader (file : List UInt8) : Outcome (Nat × Nat) := do
  let fileBytes := file.length
  let header ← readFileBytes file 0 pdbHeaderBytes fileBytes
  let layout ← parsePdbLayout header fileBytes
  let directory ← readPdbDirectory file header layout
  let debugPage ← pdbStreamFirstPage directory layout
  let debugHeader ←
    readPdbPages file [debugPage] layout.pageSize pdbDbiHeaderBytes layout.fileBytes
  if (← readU32At debugHeader 0) ≠ u32Max then .err .malformed
  else
    let originalAge ← readU32At debugHeader 8
    let machine ← readU16At debugHeader 58
    pure (machine, originalAge)

end FaultLane.PdbDebugHeader
