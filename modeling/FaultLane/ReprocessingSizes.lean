import FaultLane.CommandLines
import FaultLane.CrashWorld
import FaultLane.JsonSizes
import FaultLane.RepeatedReprocessing
import FaultLane.SymbolWaiting

set_option autoImplicit false

/-!
# Sizes along reprocessings

A crash is processed again and again. Every run of the processor gets the stored result before it
and writes a result that holds the attempts before its own, so the size of the history counts
against the limits of the file, of the output and of the next file.
-/
namespace FaultLane.ReprocessingSizes
open Fallible Json BoundedHistory CrashContext CrashRequest Symbolication CrashSymbols
  ProcessingContract ProcessingResult ProcessingHistory Redaction RepeatedReprocessing
open CrashJob (RunnerError mapRunnerError maxPreviousResultBytes)

def processorOutputBytes : Nat := 16 * 1024 * 1024
def maxPreviousBytes : Nat := 16 * 1024 * 1024

/-! ## The processor -/

inductive ProcessorError where
  | invalidInput
  | crash (reason : ProcessingResultError)
  deriving DecidableEq, Repr

/-- `read_optional` of the previous result. -/
def readOptional (previous : Option (List UInt8)) :
    Except ProcessorError (Option (List UInt8)) :=
  match previous with
  | none => .ok none
  | some bytes => do
    refuse (maxPreviousBytes < bytes.length) .invalidInput
    return some bytes

def writeJson (v : Json) : List UInt8 := v.toVec ++ [0x0a]

def process (fromSlice : List UInt8 → Option Json) (input : ProcessingInput)
    (previous : Option (List UInt8)) : Except ProcessorError (List UInt8) := do
  let previous ← readOptional previous
  let result ← (reprocess fromSlice input previous).mapError .crash
  return writeJson result

/-! ## The worker -/

def readBounded (bytes : List UInt8) (maximum : Nat) : Except RunnerError (List UInt8) := do
  refuse (maximum < bytes.length) .resourceLimit
  return bytes

/-- A processor that fails writes nothing and exits with a status of its own. -/
def runBounded (answer : Except ProcessorError (List UInt8)) : Except RunnerError (List UInt8) :=
  match answer with
  | .ok bytes => readBounded bytes processorOutputBytes
  | .error _ => .error .rejected

def runProcessor (fromSlice : List UInt8 → Option Json) (guid : String) (input : ProcessingInput)
    (previous : Option (List UInt8)) : Worked Json := do
  let stdout ← (runBounded (process fromSlice input previous)).mapError mapRunnerError
  let result ← okOr (fromSlice stdout) processorOutputInvalid
  validateResult result (some guid)
  return result

/-- What is written to `previous.json`. -/
def previousFile (stored : Option Json) : Worked (Option (List UInt8)) :=
  match stored with
  | none => .ok none
  | some previous => do
    refuse (maxPreviousResultBytes < previous.toVec.length)
      (.deterministic "previous_result_too_large")
    return some previous.toVec

/-- What stays the same from one processing of a crash to the next. -/
structure Crash where
  guid : String
  document : XmlDocument
  request : CrashRequestManifest
  log : Option CrashRequestLog

def Crash.input (c : Crash) (r : SymbolicationResult) : ProcessingInput where
  document := c.document
  includeCommandLine := false
  symbolication := r
  request := some c.request
  classification := some (CommandLines.classification c.document)
  log := c.log

/-- What the run without symbols finds, what the run with symbols finds when some were selected,
and the rules that the result is published under. -/
structure Processing where
  inspection : SymbolicationResult
  symbolicated : Option SymbolicationResult
  rules : DataRules

def Processing.runs (p : Processing) : List SymbolicationResult :=
  p.inspection :: p.symbolicated.toList

def Processing.outcome (p : Processing) : SymbolicationResult := p.symbolicated.getD p.inspection

/-- `process_crash` up to the result that is stored. -/
def processCrash (fromSlice : List UInt8 → Option Json) (c : Crash) (stored : Option Json)
    (p : Processing) : Worked Json := do
  let previous ← previousFile stored
  let inspected ← runProcessor fromSlice c.guid (c.input p.inspection) previous
  let result ← match p.symbolicated with
    | none => .ok inspected
    | some r => runProcessor fromSlice c.guid (c.input r) previous
  return (redactAndIndex p.rules result).1

/-- A processing that is refused leaves the stored result as it is. -/
def advance (fromSlice : List UInt8 → Option Json) (c : Crash) (stored : Option Json)
    (p : Processing) : Option Json :=
  match processCrash fromSlice c stored p with
  | .ok result => some result
  | .error _ => stored

/-! ## What reprocessing asks -/

/-- The output of the processor without a previous result is accepted and within its limit. -/
def FitsAlone (c : Crash) (r : SymbolicationResult) : Prop :=
  ∃ result, (c.input r).build none = .ok result ∧
    validateResult result (some c.guid) = .ok () ∧
    (writeJson result).length ≤ processorOutputBytes

/-- Every output of the processor is within its limit, and the crash is published with a result
that the next processing can be given. -/
structure Reprocesses (fromSlice : List UInt8 → Option Json) (c : Crash) (stored : Option Json)
    (p : Processing) : Prop where
  outputs : ∀ r ∈ p.runs, ∃ previous output, previousFile stored = .ok previous ∧
    process fromSlice (c.input r) previous = .ok output ∧ output.length ≤ processorOutputBytes
  published : ∃ result, processCrash fromSlice c stored p = .ok result ∧
    result.toVec.length ≤ maxPreviousResultBytes ∧ result.toVec.length ≤ maxPreviousBytes

def Reprocessable (fromSlice : List UInt8 → Option Json) (c : Crash) :
    Option Json → List Processing → Prop
  | _, [] => True
  | stored, p :: rest =>
    Reprocesses fromSlice c stored p ∧ Reprocessable fromSlice c (advance fromSlice c stored p) rest

/-! ## The history that is carried -/

section carried
variable (c : Crash)

/-- The attempt as the processor makes it. -/
def Crash.fresh (p : Processing) : Json := (c.input p.outcome).attempt

/-- The attempt as it is stored. -/
def Crash.kept (p : Processing) : Json := storedAttempt p.rules (c.input p.outcome)

/-- The stored attempts that the next one differs from. -/
def superseded : List Processing → Json → List Json
  | [], _ => []
  | [p], next => if c.kept p = next then [] else [c.kept p]
  | p :: q :: rest, next =>
    (if c.kept p = c.fresh q then [] else [c.kept p]) ++ superseded (q :: rest) next

/-- The history of a run that finds `next` after the processings `before`. -/
def carried (before : List Processing) (next : Json) : List Json :=
  takeLast maxProcessingHistory (superseded c before next)

/-- What the run writes when it carries a history. -/
def Crash.output (r : SymbolicationResult) (history : List Json) : Json :=
  Json.ofFields (resultFieldValues c.guid (c.input r).context (c.input r).request
    (c.input r).classification (c.input r).log (c.input r).attempt history)

def Crash.published (p : Processing) (history : List Json) : Json :=
  storedResult p.rules c.guid (c.input p.outcome) history

/-- Without its history every document leaves room for the attempts that it carries. -/
structure Roomy (before : List Processing) (p : Processing) : Prop where
  outputs : ∀ r ∈ p.runs,
    (c.output r []).size + listed (carried c before (c.input r).attempt) + 1 ≤ processorOutputBytes
  published : (c.published p []).size + listed (carried c before (c.fresh p)) ≤
    maxPreviousResultBytes

def AlwaysRoomy : List Processing → List Processing → Prop
  | _, [] => True
  | before, p :: rest => Roomy c before p ∧ AlwaysRoomy (before ++ [p]) rest

/-- The document is read back from its text, and from the output that holds it. -/
def ReadBack (fromSlice : List UInt8 → Option Json) (v : Json) : Prop :=
  fromSlice v.toVec = some v ∧ fromSlice (writeJson v) = some v

/-- What is written along the processings is read back. -/
def AllReadBack (fromSlice : List UInt8 → Option Json) :
    List Processing → List Processing → Prop
  | _, [] => True
  | before, p :: rest =>
    (∀ r ∈ p.runs, ReadBack fromSlice (c.output r (carried c before (c.input r).attempt))) ∧
      ReadBack fromSlice (c.published p (carried c before (c.fresh p))) ∧
      AllReadBack fromSlice (before ++ [p]) rest

variable {c}

theorem superseded_append (before : List Processing) (p : Processing) (next : Json) :
    superseded c (before ++ [p]) next =
      superseded c before (c.fresh p) ++ if c.kept p = next then [] else [c.kept p] := by
  induction before with
  | nil => rfl
  | cons q rest ih =>
    cases rest with
    | nil => rfl
    | cons s rest =>
      change _ ++ superseded c (s :: rest ++ [p]) next = _ ++ superseded c (s :: rest) _ ++ _
      rw [ih, List.append_assoc]

theorem carried_append (before : List Processing) (p : Processing) (next : Json) :
    nextHistory (some ⟨c.kept p, carried c before (c.fresh p)⟩) next =
      carried c (before ++ [p]) next := by
  unfold carried nextHistory
  dsimp only
  rw [superseded_append]
  split_ifs
  · rw [List.append_nil]
  · rw [pushBoundedHistory, pushBounded_eq (by decide), takeLast_takeLast_append]

end carried
end FaultLane.ReprocessingSizes
