import FaultLane.SymbolUpload
import FaultLane.TransitionSystem

set_option autoImplicit false

/-!
# Clients and workers on uploaded symbols

Negotiations and complete calls run statement by statement, and index jobs run in the hands
of workers. Every statement, transaction and provider call is one step, and a call that
fails takes no further step.
-/
namespace FaultLane.SymbolUpload
open KeyedTable JobQueue

/-- An object of the store, by what its bytes are. -/
structure StoredObject where
  key : ObjectKey
  checksum : Checksum
  byteSize : Nat
  deriving DecidableEq

/-- The statement that a negotiated artifact runs next. -/
inductive NegotiationStep where
  | upsertManifest
  | retireReplaced
  | upsertAgain
  | findMatchingImage (manifestId : Uuid)
  | markAvailable (manifestId image : Uuid)
  | hasChecksum (manifestId : Uuid)
  | markMismatch (manifestId : Uuid)
  | markMissing (manifestId : Uuid)
  | retireStale (manifestId : Uuid)
  | checkConflict (manifestId : Uuid)
  | loadActive (manifestId : Uuid)
  | create (manifestId : Uuid)
  deriving DecidableEq

structure Negotiation where
  id : Uuid
  artifact : ValidatedArtifact
  step : NegotiationStep
  deriving DecidableEq

inductive CompletionStep where
  | load
  | cleanupDuplicate (session : Session)
  | delete (key : ObjectKey)
  | begin (session : Session)
  | checkObject (session : Session)
  | completeMultipart (session : Session)
  | enqueue (session : Session)
  deriving DecidableEq

structure Completion where
  id : Uuid
  projectId : Uuid
  uploadId : Uuid
  step : CompletionStep
  deriving DecidableEq

inductive IndexStep where
  | load
  | loaded (artifact : Session) (verified : Bool)
  | delete (key : ObjectKey)
  | done
  deriving DecidableEq

structure IndexAttempt where
  holder : Holder
  projectId : Uuid
  uploadId : Uuid
  step : IndexStep
  deriving DecidableEq

abbrev IndexAttempt.token (a : IndexAttempt) : Uuid := a.holder.token

structure IndexJob where
  uploadId : Uuid
  projectId : Uuid
  job : Job
  deriving DecidableEq

structure State where
  now : Nat
  uploads : Uploads
  store : Table StoredObject.key
  multiparts : List ObjectKey
  jobs : Table IndexJob.uploadId
  negotiations : Table Negotiation.id
  completions : Table Completion.id
  attempts : Table IndexAttempt.token

def State.init : State := ⟨0, .empty, .empty, [], .empty, .empty, .empty, .empty⟩

section step
variable (s : State)

/-! ## Negotiations -/

def State.abortMultipart : Option ObjectKey → State
  | none => s
  | some key => { s with multiparts := s.multiparts.erase key }

/-- The statement that a negotiation is at, and the one that it is at afterwards. -/
def negotiateNext (a : ValidatedArtifact) (newId : Uuid) (image : Option Uuid) :
    NegotiationStep → Option (State × Option NegotiationStep)
  | .upsertManifest =>
    match s.uploads.tryUpsertManifestArtifact a newId with
    | .unavailable => none
    | .refused => some (s, some .retireReplaced)
    | .written m u => some ({ s with uploads := u }, some (.findMatchingImage m))
  | .retireReplaced =>
    let (u, key) := s.uploads.retireReplacedActiveSession a
    some ({ s with uploads := u }.abortMultipart key, some .upsertAgain)
  | .upsertAgain =>
    match s.uploads.tryUpsertManifestArtifact a newId with
    | .unavailable | .refused => none
    | .written m u => some ({ s with uploads := u }, some (.findMatchingImage m))
  | .findMatchingImage m =>
    match image with
    | some image =>
      if image ∈ (s.uploads.matchingImages a.identity).map DebugImage.id then
        some (s, some (.markAvailable m image))
      else none
    | none =>
      if s.uploads.matchingImages a.identity = [] then some (s, some (.hasChecksum m)) else none
  | .markAvailable m image => do
    let u ← s.uploads.markManifestAvailable a.projectId m image
    some ({ s with uploads := u }, none)
  | .hasChecksum m =>
    some (s, some (if s.uploads.organizationHasChecksum a.identity then .markMismatch m
      else .markMissing m))
  | .markMismatch m => do
    let u ← s.uploads.updateManifestState a.projectId m .mismatch
    some ({ s with uploads := u }, none)
  | .markMissing m => do
    let u ← s.uploads.updateManifestState a.projectId m .missing
    some ({ s with uploads := u }, some (.retireStale m))
  | .retireStale m =>
    let (u, key) := s.uploads.retireStaleSession a m s.now
    some ({ s with uploads := u }.abortMultipart key, some (.checkConflict m))
  | .checkConflict m =>
    if s.uploads.conflictingSession a m then none else some (s, some (.loadActive m))
  | .loadActive m =>
    some (s, if (s.uploads.loadActiveSession a m s.now).isSome then none else some (.create m))
  | .create m => do
    let u ← s.uploads.insertSession a m newId s.now
    some ({ s with uploads := u, multiparts := newId :: s.multiparts }, none)

def startNegotiation (id : Uuid) (a : ValidatedArtifact) : Option State :=
  if (s.negotiations.find id).isSome then none
  else some { s with negotiations := s.negotiations.insert ⟨id, a, .upsertManifest⟩ }

def negotiate (id newId : Uuid) (image : Option Uuid) : Option State := do
  let n ← s.negotiations.find id
  let (s', next) ← negotiateNext s n.artifact newId image n.step
  match next with
  | none => some { s' with negotiations := s'.negotiations.delete id }
  | some step =>
    some { s' with
      negotiations := s'.negotiations.modify id (fun n => { n with step := step }) fun _ => rfl }

/-! ## Complete calls -/

def completeNext (projectId uploadId : Uuid) (checksum : Checksum) (byteSize : Nat) :
    CompletionStep → Option (State × Option CompletionStep)
  | .load => do
    let session ← s.uploads.session projectId uploadId
    match session.state with
    | .completed => some (s, some (.cleanupDuplicate session))
    | .processing => some (s, none)
    | .failed _ => some (s, some (.delete session.objectKey))
    | .active => if session.expiresAt ≤ s.now then none else some (s, some (.begin session))
    | .completing => some (s, some (.checkObject session))
    | .aborted => none
  | .cleanupDuplicate session =>
    match s.uploads.canonicalObject session with
    | none => some (s, none)
    | some o =>
      some (s, if o.objectKey = session.objectKey then none else some (.delete session.objectKey))
  | .delete key => some ({ s with store := s.store.delete key }, none)
  | .begin session => do
    let current ← s.uploads.session projectId uploadId
    if current.state = .active then
      some ({ s with uploads := s.uploads.moveSession uploadId .active .completing (by decide) },
        some (.checkObject { session with state := .completing }))
    else none
  | .checkObject session =>
    some (s, some (if (s.store.find session.objectKey).isSome then .enqueue session
      else .completeMultipart session))
  | .completeMultipart session =>
    if session.objectKey ∈ s.multiparts then
      some ({ s with
        multiparts := s.multiparts.erase session.objectKey
        store := (s.store.delete session.objectKey).insert
          ⟨session.objectKey, checksum, byteSize⟩ }, some (.enqueue session))
    else none
  | .enqueue session => do
    let u ← s.uploads.enqueueArtifactIndex session
    some ({ s with
      uploads := u
      jobs := s.jobs.insert ⟨session.id, session.projectId, .new 100 s.now⟩ }, none)

def startCompletion (id projectId uploadId : Uuid) : Option State :=
  if (s.completions.find id).isSome then none
  else some { s with completions := s.completions.insert ⟨id, projectId, uploadId, .load⟩ }

/-- The bytes are those of the parts that the client has uploaded. -/
def complete (id : Uuid) (checksum : Checksum) (byteSize : Nat) : Option State := do
  let c ← s.completions.find id
  let (s', next) ← completeNext s c.projectId c.uploadId checksum byteSize c.step
  match next with
  | none => some { s' with completions := s'.completions.delete id }
  | some step =>
    some { s' with
      completions := s'.completions.modify id (fun c => { c with step := step }) fun _ => rfl }

/-! ## Index jobs -/

def State.putJob (uploadId : Uuid) (j : Job) : State :=
  { s with jobs := s.jobs.modify uploadId (fun r => { r with job := j }) fun _ => rfl }

def State.putAttempt (token : Uuid) (step : IndexStep) : State :=
  { s with
    attempts := s.attempts.modify token (fun a => { a with step := step }) fun _ => rfl }

def State.attempt (token : Uuid) : Option (IndexAttempt × Job) := do
  let a ← s.attempts.find token
  let r ← s.jobs.find a.uploadId
  some (a, r.job)

def claim (uploadId : Uuid) (h : Holder) : Option State := do
  let r ← s.jobs.find uploadId
  let j ← r.job.claim h s.now
  if (s.attempts.find h.token).isSome then none
  else
    some { s.putJob uploadId j with
      attempts := s.attempts.insert ⟨h, r.projectId, uploadId, .load⟩ }

def heartbeat (token : Uuid) : Option State := do
  let (a, j) ← s.attempt token
  let j ← j.heartbeat a.holder s.now
  some (s.putJob a.uploadId j)

def releaseJob (token seconds : Nat) (resource dependency : Bool) (code : String) :
    Option State := do
  let (a, j) ← s.attempt token
  let j ← j.release a.holder s.now seconds resource dependency code
  some (s.putJob a.uploadId j)

/-- The select at the start of `index_artifact`. -/
def loadArtifact (token : Uuid) : Option State := do
  let a ← s.attempts.find token
  let artifact ← s.uploads.session a.projectId a.uploadId
  if a.step = .load ∧ artifact.state = .processing then
    some (s.putAttempt token (.loaded artifact false))
  else none

/-- The download, when the size and the checksum are the expected ones. -/
def verifyArtifact (token : Uuid) : Option State := do
  let a ← s.attempts.find token
  match a.step with
  | .loaded artifact _ =>
    let o ← s.store.find artifact.objectKey
    if o.checksum = artifact.identity.checksum ∧ o.byteSize = artifact.identity.byteSize then
      some (s.putAttempt token (.loaded artifact true))
    else none
  | _ => none

def publishArtifact (token objectId imageId : Uuid) : Option State := do
  let (a, j) ← s.attempt token
  let j ← j.lockLease a.holder s.now
  match a.step with
  | .loaded artifact true =>
    let (u, canonical) ← s.uploads.publishArtifact artifact objectId imageId
    let j ← j.completeJob a.holder none
    some (({ s with uploads := u }.putJob a.uploadId j).putAttempt token
      (if canonical = artifact.objectKey then .done else .delete artifact.objectKey))
  | _ => none

def publishArtifactFailure (token : Uuid) (code : String) (quarantine : Bool) : Option State := do
  let (a, j) ← s.attempt token
  let j ← j.lockLease a.holder s.now
  match a.step with
  | .loaded artifact _ =>
    let u ← s.uploads.publishArtifactFailure artifact code quarantine
    let j ← j.completeJob a.holder (some code)
    some (({ s with uploads := u }.putJob a.uploadId j).putAttempt token
      (.delete artifact.objectKey))
  | _ => none

def finishFailure (token : Uuid) (quarantine resource : Bool) (code : String) : Option State := do
  let (a, j) ← s.attempt token
  let j ← j.lockLease a.holder s.now
  let u ← s.uploads.failArtifact a.projectId a.uploadId code
  let j ← j.terminalJob a.holder quarantine resource code
  some (({ s with uploads := u }.putJob a.uploadId j).putAttempt token .done)

/-- The delete after the commit of a publication. -/
def deleteObject (token : Uuid) : Option State := do
  let a ← s.attempts.find token
  match a.step with
  | .delete key => some ({ s with store := s.store.delete key }.putAttempt token .done)
  | _ => none

end step

inductive Action where
  | tick (seconds : Nat)
  | startNegotiation (id : Uuid) (artifact : ValidatedArtifact)
  | negotiate (id newId : Uuid) (image : Option Uuid)
  | startCompletion (id projectId uploadId : Uuid)
  | complete (id : Uuid) (checksum : Checksum) (byteSize : Nat)
  | claim (uploadId : Uuid) (holder : Holder)
  | heartbeat (token : Uuid)
  | releaseJob (token seconds : Nat) (resource dependency : Bool) (code : String)
  | loadArtifact (token : Uuid)
  | verifyArtifact (token : Uuid)
  | publishArtifact (token objectId imageId : Uuid)
  | publishArtifactFailure (token : Uuid) (code : String) (quarantine : Bool)
  | finishFailure (token : Uuid) (quarantine resource : Bool) (code : String)
  | deleteObject (token : Uuid)

def step (s : State) : Action → Option State
  | .tick seconds => some { s with now := s.now + seconds }
  | .startNegotiation id artifact => startNegotiation s id artifact
  | .negotiate id newId image => negotiate s id newId image
  | .startCompletion id projectId uploadId => startCompletion s id projectId uploadId
  | .complete id checksum byteSize => complete s id checksum byteSize
  | .claim uploadId holder => claim s uploadId holder
  | .heartbeat token => heartbeat s token
  | .releaseJob token seconds resource dependency code =>
    releaseJob s token seconds resource dependency code
  | .loadArtifact token => loadArtifact s token
  | .verifyArtifact token => verifyArtifact s token
  | .publishArtifact token objectId imageId => publishArtifact s token objectId imageId
  | .publishArtifactFailure token code quarantine => publishArtifactFailure s token code quarantine
  | .finishFailure token quarantine resource code => finishFailure s token quarantine resource code
  | .deleteObject token => deleteObject s token

end FaultLane.SymbolUpload
