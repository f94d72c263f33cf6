import FaultLane.Fallible
import FaultLane.MachineArithmetic
import FaultLane.RustText
import FaultLane.SortedMap
import FaultLane.SymbolUpload
import FaultLane.Tilings

set_option autoImplicit false

/-!
# Multipart uploads

How the command line tool cuts an artifact into parts and sends those that the service does
not have, and how the service numbers, checks and counts the parts of a session. MD5, Base64,
the network and the object store are parameters.
-/
namespace FaultLane.MultipartUpload
open Fallible Machine RustText SymbolUpload Tilings

/-- MD5, and Base64 in its standard alphabet. -/
structure Digests where
  md5 : List UInt8 → List UInt8
  encode : List UInt8 → Text
  decode : Text → Option (List UInt8)

def Digests.decodesTo16 (digests : Digests) (value : Text) : Bool :=
  (digests.decode value).any (·.length == 16)

structure SignPartRequest where
  partNumber : Int32
  byteSize : Int64
  contentMd5 : Text

structure SignPartResponse where
  method : String
  url : Text
  headers : List (Text × Text)
  expiresInSeconds : Nat

structure RecordPartRequest where
  etag : Text
  byteSize : Int64
  contentMd5 : Text

/-! ## The command line tool -/

namespace Cli

inductive UploadError where
  | validation (message : String)
  | unauthorized
  | retryable
  | internal
  deriving DecidableEq

structure CompletedPartView where
  partNumber : Int32
  byteSize : Int32
  contentMd5 : Text

structure UploadView where
  id : Text
  partSize : UInt64
  partCount : UInt32
  completedParts : List CompletedPartView

structure LocalArtifact where
  path : String
  byteSize : UInt64

/-- What the tool meets on its own machine: whether the file opens, whether a buffer is
granted, and what is read into it. -/
structure LocalHost where
  opens : Bool
  reserves : Nat → Bool
  readExact : ∀ _offset capacity : Nat, Option { bytes : List UInt8 // bytes.length = capacity }

structure Part where
  number : Nat
  offset : Nat
  byteSize : Nat
  deriving DecidableEq

def Part.piece (p : Part) : Piece := ⟨p.offset, p.byteSize⟩

/-- A request that was sent, with the part it is for. -/
inductive Request where
  | sign (part : Part)
  | put (part : Part) (bytes : List UInt8)
  | record (part : Part)

def Request.part : Request → Part
  | .sign part => part
  | .put part _ => part
  | .record part => part

/-- The parts whose bytes were sent. -/
def putParts (requests : List Request) : List Part :=
  requests.filterMap fun
    | .put part _ => some part
    | _ => none

/-- The three calls of the service, on a state of it. -/
structure Api (σ : Type) where
  signPart : Text → SignPartRequest → σ → Except UploadError SignPartResponse × σ
  uploadPart : SignPartResponse → List UInt8 → σ → Except UploadError Text × σ
  recordPart : Text → Nat → RecordPartRequest → σ → Except UploadError Unit × σ

structure Transfer (σ : Type) where
  service : σ
  requests : List Request

def maxPartBytes : Nat := 64 * 1024 * 1024

def maxParts : Nat := 10000

section
variable {σ α β : Type}

abbrev Sending (σ α : Type) := Transfer σ → Except UploadError α × Transfer σ

def Sending.bind (x : Sending σ α) (f : α → Sending σ β) : Sending σ β := fun t =>
  match x t with
  | (.error e, t) => (.error e, t)
  | (.ok a, t) => f a t

def fail (e : UploadError) : Sending σ α := fun t => (.error e, t)

def ofOption (o : Option α) (e : UploadError) : Sending σ α := fun t => (okOr o e, t)

def call (request : Request) (f : σ → Except UploadError α × σ) : Sending σ α := fun t =>
  ((f t.service).1, ⟨(f t.service).2, t.requests ++ [request]⟩)

end

section
variable {σ : Type} (digests : Digests) (host : LocalHost) (api : Api σ)
  (artifact : LocalArtifact) (upload : UploadView)

/-- The size that a completed part is compared with, before its number is checked. -/
def expectedSize (part : CompletedPartView) : Arithmetic (Option Nat) := do
  let previous ← Arithmetic.subI32 part.partNumber.toInt 1
  match (toU64 previous).bind fun value => checkedMulU64 value upload.partSize.toNat with
  | none => pure none
  | some value => do
    let rest ← Arithmetic.subUnsigned 64 artifact.byteSize.toNat value
    pure (some (min rest upload.partSize.toNat))

def refusesPart (completed : List Int32) (part : CompletedPartView) (expectedSize : Option Nat) :
    Bool :=
  part.partNumber.toInt < 1 ||
    (toU32 part.partNumber.toInt).all (fun value => upload.partCount.toNat < value) ||
    part.byteSize.toInt ≤ 0 ||
    toU64 part.byteSize.toInt != expectedSize ||
    !digests.decodesTo16 part.contentMd5 ||
    part.partNumber ∈ completed

def checkCompleted (completed : List Int32) : List CompletedPartView →
    Arithmetic (Option (List Int32))
  | [] => pure (some completed)
  | part :: parts => do
    let expectedSize ← expectedSize artifact upload part
    if refusesPart digests upload completed part expectedSize then pure none
    else checkCompleted (part.partNumber :: completed) parts

def transferPart (part : Part) : Sending σ Unit :=
  if host.reserves part.byteSize then
    Sending.bind (ofOption (host.readExact part.offset part.byteSize)
      (.validation s!"failed to read artifact: {artifact.path}")) fun bytes =>
    Sending.bind (ofOption (toI32 part.number) .internal) fun number =>
    Sending.bind (ofOption (toI64 part.byteSize) .internal) fun byteSize =>
    let contentMd5 := digests.encode (digests.md5 bytes.val)
    Sending.bind (call (.sign part) (api.signPart upload.id ⟨number, byteSize, contentMd5⟩))
      fun signed =>
    if signed.method ≠ "PUT" ∨ signed.expiresInSeconds = 0 then fail .internal
    else
      Sending.bind (call (.put part bytes.val) (api.uploadPart signed bytes.val)) fun etag =>
      call (.record part) (api.recordPart upload.id part.number ⟨etag, byteSize, contentMd5⟩)
  else fail .internal

/-- The offset and the size of a part. -/
def locatePart (number : Nat) : Arithmetic (Option Part) := do
  let previous ← Arithmetic.subUnsigned 32 number 1
  match checkedMulU64 previous upload.partSize.toNat with
  | none => pure none
  | some offset => do
    let rest ← Arithmetic.subUnsigned 64 artifact.byteSize.toNat offset
    pure (some ⟨number, offset, min rest upload.partSize.toNat⟩)

/-- The body of the loop over the parts, with the bytes transferred so far. -/
def sendPart (completed : List Int32) (number transferred : Nat) (t : Transfer σ) :
    Arithmetic (Except UploadError Nat × Transfer σ) :=
  (toI32 number).elim (pure (.error .internal, t)) fun number' =>
    if number' ∈ completed then pure (.ok transferred, t)
    else do
      match ← locatePart artifact upload number with
      | none => pure (.error .internal, t)
      | some part =>
        match transferPart digests host api artifact upload part t with
        | (.error e, t) => pure (.error e, t)
        | (.ok (), t) =>
          pure (okOr (checkedAddU64 transferred part.byteSize) .internal, t)

def sendParts (completed : List Int32) (transferred : Nat) (t : Transfer σ) : List Nat →
    Arithmetic (Except UploadError Nat × Transfer σ)
  | [] => pure (.ok transferred, t)
  | number :: numbers => do
    match ← sendPart digests host api artifact upload completed number transferred t with
    | (.error e, t) => pure (.error e, t)
    | (.ok transferred, t) => sendParts completed transferred t numbers

def validPlan : Bool :=
  upload.partSize.toNat ≠ 0 ∧ upload.partSize.toNat ≤ maxPartBytes ∧ upload.partCount.toNat ≠ 0 ∧
    upload.partCount.toNat ≤ maxParts ∧
    upload.partCount.toNat = divCeil artifact.byteSize.toNat upload.partSize.toNat

def uploadArtifact (service : σ) : Arithmetic (Except UploadError Nat × Transfer σ) :=
  if validPlan artifact upload then do
    match ← checkCompleted digests artifact upload [] upload.completedParts with
    | none => pure (.error .internal, ⟨service, []⟩)
    | some completed =>
      if host.opens then
        sendParts digests host api artifact upload completed 0 ⟨service, []⟩
          (List.range' 1 upload.partCount.toNat)
      else
        pure (.error (.validation s!"failed to read artifact: {artifact.path}"), ⟨service, []⟩)
  else pure (.error .internal, ⟨service, []⟩)

end
end Cli

/-! ## The service -/

inductive UploadError where
  | invalid
  | conflict
  | unavailable
  | internal
  deriving DecidableEq

def partBytes : Nat := 8 * 1024 * 1024

def maxParts : Nat := 10000

def presignSeconds : Nat := 10 * 60

/-- The columns of an upload session that its parts depend on. -/
structure PartSession where
  byteSize : Int64
  partSize : Int32
  partCount : Int32
  state : SessionState
  expired : Bool

/-- The row that `get_or_create_session` inserts, under the checks of its columns. -/
def createSession (byteSize : UInt64) : Except UploadError PartSession := do
  let partCount := divCeil byteSize.toNat partBytes
  refuse (partCount = 0 ∨ maxParts < partCount) .invalid
  let byteSize ← okOr (toI64 byteSize.toNat) .invalid
  let partSize ← okOr (toI32 partBytes) .internal
  let partCount ← okOr (toI32 partCount) .invalid
  refuse (¬ (0 < byteSize.toInt ∧ 5242880 ≤ partSize.toInt ∧ 1 ≤ partCount.toInt ∧
    partCount.toInt ≤ 10000)) .unavailable
  .ok ⟨byteSize, partSize, partCount, .active, false⟩

def expectedPartSize (session : PartSession) (partNumber : Int32) : Except UploadError Int :=
  if partNumber.toInt < 1 ∨ session.partCount.toInt < partNumber.toInt then .error .invalid
  else if partNumber.toInt < session.partCount.toInt then .ok session.partSize.toInt
  else do
    let preceding ← okOr
      (checkedMulI64 session.partSize.toInt (session.partCount.toInt - 1)) .internal
    okOr ((checkedSubI64 session.byteSize.toInt preceding).filter fun value => 0 < value) .internal

structure PartRow where
  partNumber : Int32
  etag : Text
  contentMd5 : Text
  byteSize : Int32

/-- The recorded parts of a session, in the order of their numbers. -/
abbrev PartRows := SortedMap Int PartRow

structure ProviderPart where
  number : Int32
  etag : Text
  byteSize : Int

/-- The calls of the object store for one multipart upload. -/
structure ObjectStore (τ : Type) where
  signPart : Int32 → Int64 → Text → Option (Text × List (Text × Text))
  put : SignPartResponse → List UInt8 → τ → Except Cli.UploadError Text × τ
  providerPart : Int32 → τ → Option (Option ProviderPart)

def validContentMd5 (digests : Digests) (value : Text) : Bool :=
  byteLength value == 24 && digests.decodesTo16 value

def validEtag (value : Text) : Bool :=
  !value.isEmpty && byteLength value ≤ 128 && !value.any isControl && !value.any isWhitespace

def trimQuotes (value : Text) : Text :=
  ((value.dropWhile (· == '"')).reverse.dropWhile (· == '"')).reverse

def sameEtag (left right : Text) : Bool := trimQuotes left == trimQuotes right

def lowerHexBytes (bytes : List UInt8) : Text :=
  bytes.flatMap fun b => [hexDigitChar (b.toNat / 16), hexDigitChar (b.toNat % 16)]

def etagMatchesMd5 (digests : Digests) (etag contentMd5 : Text) : Bool :=
  (digests.decode contentMd5).any fun digest => lowerHexBytes digest == trimQuotes etag

section
variable {τ : Type} (digests : Digests) (store : ObjectStore τ) (session : PartSession)

def signUploadPart (request : SignPartRequest) : Except UploadError SignPartResponse := do
  refuse (session.state ≠ .active ∨ session.expired) .conflict
  refuse (request.partNumber.toInt < 1 ∨ session.partCount.toInt < request.partNumber.toInt)
    .invalid
  let expected ← expectedPartSize session request.partNumber
  refuse (request.byteSize.toInt ≠ expected ∨ ¬ validContentMd5 digests request.contentMd5)
    .invalid
  let signed ← okOr (store.signPart request.partNumber request.byteSize request.contentMd5)
    .unavailable
  .ok ⟨"PUT", signed.1, signed.2, presignSeconds⟩

/-- The row of a recorded part, which replaces the one its number has. -/
def recordUploadPart (stored : τ) (partNumber : Int32) (request : RecordPartRequest)
    (rows : PartRows) : Except UploadError PartRows := do
  refuse (session.state ≠ .active ∨ session.expired) .conflict
  refuse (partNumber.toInt < 1 ∨ session.partCount.toInt < partNumber.toInt) .invalid
  let expected ← expectedPartSize session partNumber
  refuse (request.byteSize.toInt ≠ expected ∨ ¬ validContentMd5 digests request.contentMd5 ∨
    ¬ validEtag request.etag) .invalid
  let provider ← okOr (store.providerPart partNumber stored) .unavailable
  let provider ← okOr provider .conflict
  refuse (provider.byteSize ≠ request.byteSize.toInt ∨ ¬ sameEtag provider.etag request.etag ∨
    ¬ etagMatchesMd5 digests provider.etag request.contentMd5) .conflict
  let byteSize ← okOr (toI32 request.byteSize.toInt) .invalid
  refuse (¬ (1 ≤ partNumber.toInt ∧ partNumber.toInt ≤ 10000 ∧ 0 < byteSize.toInt)) .unavailable
  .ok (rows.insert partNumber.toInt ⟨partNumber, provider.etag, request.contentMd5, byteSize⟩)

def loadCompletedParts (rows : PartRows) : List Cli.CompletedPartView :=
  rows.values.map fun row => ⟨row.partNumber, row.byteSize, row.contentMd5⟩

/-- The view of a session that a negotiation answers with. -/
def uploadView (id : Text) (rows : PartRows) : Except UploadError Cli.UploadView := do
  let partSize ← okOr (toU64 session.partSize.toInt) .internal
  let partCount ← okOr (toU32 session.partCount.toInt) .internal
  .ok ⟨id, UInt64.ofNat partSize, UInt32.ofNat partCount, loadCompletedParts rows⟩

/-- The loop of `load_provider_parts`, with the index of the next row. -/
def checkRows (index : Nat) : List PartRow → Except UploadError (List ProviderPart)
  | [] => .ok []
  | row :: rows => do
    let number ← okOr (toI32 (index + 1)) .internal
    refuse (row.partNumber ≠ number) .conflict
    let expected ← expectedPartSize session row.partNumber
    refuse (row.byteSize.toInt ≠ expected) .conflict
    let parts ← checkRows (index + 1) rows
    .ok (⟨row.partNumber, row.etag, row.byteSize.toInt⟩ :: parts)

def loadProviderParts (rows : PartRows) : Except UploadError (List ProviderPart) := do
  let partCount ← okOr (toU64 session.partCount.toInt) .internal
  refuse (rows.length ≠ partCount) .conflict
  checkRows session 0 rows.values

/-- How the tool reads the status of a refused request. -/
def UploadError.seen : UploadError → Cli.UploadError
  | .invalid => .validation "artifact upload request was rejected"
  | .conflict | .unavailable | .internal => .retryable

structure Service (τ : Type) where
  rows : PartRows
  stored : τ

/-- The number of a path, and the row that is recorded under it. -/
def recordPart (partNumber : Nat) (request : RecordPartRequest) (s : Service τ) :
    Except UploadError PartRows := do
  let partNumber ← okOr (toI32 partNumber) .invalid
  recordUploadPart digests store session s.stored partNumber request s.rows

/-- The session as the service of the tool's requests. -/
def sessionApi : Cli.Api (Service τ) where
  signPart _ request s := ((signUploadPart digests store session request).mapError (·.seen), s)
  uploadPart signed bytes s :=
    ((store.put signed bytes s.stored).1, { s with stored := (store.put signed bytes s.stored).2 })
  recordPart _ partNumber request s :=
    match recordPart digests store session partNumber request s with
    | .error e => (.error e.seen, s)
    | .ok rows => (.ok (), { s with rows := rows })

end
end FaultLane.MultipartUpload
