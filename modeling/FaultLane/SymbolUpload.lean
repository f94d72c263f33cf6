import FaultLane.CrashSymbols
import FaultLane.JobQueue
import FaultLane.PartialIndex

set_option autoImplicit false

/-!
# Uploaded symbols

The manifest rows, upload sessions, stored objects and debug images of one organization,
and what each statement on them does. A statement that finds no row to change, or that
breaks a check of its table, gives `none`.
-/
namespace FaultLane.SymbolUpload
open KeyedTable JobQueue CrashSymbols

abbrev Checksum := List UInt8

/-- The key of an upload is made of its session's id. -/
abbrev ObjectKey := Uuid

/-- The columns that an upload and its manifest row share. -/
structure ArtifactIdentity where
  checksum : Checksum
  byteSize : Nat
  artifactType : ArtifactType
  moduleName : String
  architecture : String
  debugId : String
  codeId : Option String
  deriving DecidableEq

inductive ManifestState where
  | missing
  | processing
  | available
  | mismatch
  | quarantined (failureCode : String)
  deriving DecidableEq, Repr

structure ManifestArtifact where
  id : Uuid
  projectId : Uuid
  releaseId : Uuid
  sourcePath : String
  identity : ArtifactIdentity
  debugImage : Option Uuid
  state : ManifestState
  deriving DecidableEq

inductive SessionState where
  | active
  | completing
  | processing
  | completed
  | failed (failureCode : String)
  | aborted
  deriving DecidableEq, Repr

def SessionState.isOpen : SessionState → Bool
  | .active | .completing | .processing => true
  | .completed | .failed _ | .aborted => false

structure Session where
  id : Uuid
  projectId : Uuid
  manifestId : Uuid
  identity : ArtifactIdentity
  state : SessionState
  expiresAt : Nat
  deriving DecidableEq

def Session.objectKey (s : Session) : ObjectKey := s.id

def Session.isOpen (s : Session) : Prop := s.state.isOpen = true

instance : DecidablePred Session.isOpen := fun _ => inferInstanceAs (Decidable (_ = _))

inductive ObjectLifecycle where
  | stored
  | orphaned
  deriving DecidableEq, Repr

structure ArtifactObject where
  id : Uuid
  objectKey : ObjectKey
  checksum : Checksum
  byteSize : Nat
  lifecycle : ObjectLifecycle
  deriving DecidableEq

inductive ImageStatus where
  | processing
  | available
  | quarantined
  deriving DecidableEq, Repr

structure DebugImage where
  id : Uuid
  objectId : Uuid
  artifactType : ArtifactType
  moduleName : String
  architecture : String
  debugId : String
  codeId : Option String
  status : ImageStatus
  deriving DecidableEq

structure Uploads where
  manifests : Table ManifestArtifact.id
  sessions : IndexedTable Session.id Session.isOpen Session.manifestId
  objects : Table ArtifactObject.checksum
  images : Table DebugImage.id

def Uploads.empty : Uploads := ⟨.empty, .empty, .empty, .empty⟩

/-- An artifact of a negotiation, with the scope of its token and its release. -/
structure ValidatedArtifact where
  projectId : Uuid
  releaseId : Uuid
  path : String
  identity : ArtifactIdentity
  deriving DecidableEq

section statements
variable (u : Uploads)

def Uploads.setManifest (m : ManifestArtifact) : Uploads :=
  { u with
    manifests := u.manifests.modify m.id
      (fun old => { m with id := old.id }) fun _ => rfl }

/-- `UPDATE artifact_upload_sessions SET state = … WHERE id = … AND state = …`. -/
def Uploads.moveSession (id : Uuid) (source target : SessionState) (h : source.isOpen) : Uploads :=
  { u with
    sessions := u.sessions.modify id
      (fun s => if s.state = source then { s with state := target } else s)
      (fun s => by split <;> rfl) (fun s => by split <;> rfl)
      fun s hs => by
        split at hs
        · next hstate => exact (congrArg SessionState.isOpen hstate).trans h
        · exact hs }

def Uploads.session (projectId id : Uuid) : Option Session :=
  (u.sessions.find id).filter (·.projectId = projectId)

def Uploads.manifest (projectId id : Uuid) : Option ManifestArtifact :=
  (u.manifests.find id).filter (·.projectId = projectId)

def Uploads.sessionWhere (p : Session → Prop) [DecidablePred p] : Option Session :=
  u.sessions.table.rows.find? p

/-! ## Negotiation -/

inductive Upserted where
  | unavailable
  | refused
  | written (manifestId : Uuid) (u : Uploads)

/-- The row after `ON CONFLICT DO UPDATE`, which leaves the failure code alone. -/
def ManifestArtifact.replaced (m : ManifestArtifact) (a : ValidatedArtifact) : ManifestArtifact :=
  { m with
    identity := a.identity
    debugImage := none
    state := if m.state = .processing ∧ m.identity = a.identity then .processing else .missing }

def ManifestState.quarantinedBy : ManifestState → Option String
  | .quarantined failureCode => some failureCode
  | _ => none

def Uploads.tryUpsertManifestArtifact (a : ValidatedArtifact) (newId : Uuid) : Upserted :=
  match u.manifests.rows.find? fun m => m.releaseId = a.releaseId ∧ m.sourcePath = a.path with
  | none =>
    if (u.manifests.find newId).isSome then .unavailable
    else
      .written newId
        { u with
          manifests := u.manifests.insert
            ⟨newId, a.projectId, a.releaseId, a.path, a.identity, none, .missing⟩ }
  | some m =>
    if m.projectId = a.projectId ∧
        ((u.sessionWhere fun s => s.manifestId = m.id ∧ s.isOpen).isNone ∨
          m.identity = a.identity) then
      if m.state.quarantinedBy.isSome then .unavailable
      else .written m.id (u.setManifest (m.replaced a))
    else .refused

/-- The new state, and the multipart upload to abort. -/
def Uploads.abort (s : Option Session) : Uploads × Option ObjectKey :=
  match s with
  | none => (u, none)
  | some s => (u.moveSession s.id .active .aborted rfl, some s.objectKey)

def Uploads.retireReplacedActiveSession (a : ValidatedArtifact) : Uploads × Option ObjectKey :=
  u.abort <| u.sessionWhere fun s => s.state = .active ∧ s.identity ≠ a.identity ∧
    ∃ m ∈ u.manifests.find s.manifestId,
      m.projectId = a.projectId ∧ m.releaseId = a.releaseId ∧ m.sourcePath = a.path

def DebugImage.matches (d : DebugImage) (o : ArtifactObject) (i : ArtifactIdentity) : Prop :=
  d.objectId = o.id ∧ o.byteSize = i.byteSize ∧ o.lifecycle = .stored ∧ d.status = .available ∧
    d.artifactType = i.artifactType ∧ d.architecture = i.architecture ∧ d.debugId = i.debugId ∧
    d.codeId = i.codeId

instance (d : DebugImage) (o : ArtifactObject) (i : ArtifactIdentity) : Decidable (d.matches o i) :=
  inferInstanceAs (Decidable (_ ∧ _))

/-- The images from which `find_matching_debug_image` takes one. -/
def Uploads.matchingImages (i : ArtifactIdentity) : List DebugImage :=
  u.images.rows.filter fun d => ∃ o ∈ u.objects.find i.checksum, d.matches o i

def Uploads.organizationHasChecksum (i : ArtifactIdentity) : Bool :=
  (u.objects.find i.checksum).isSome

def Uploads.markManifestAvailable (projectId manifestId image : Uuid) : Option Uploads := do
  let m ← u.manifest projectId manifestId
  some (u.setManifest { m with state := .available, debugImage := some image })

/-- `update_manifest_state`, to `missing` or `mismatch`, which keeps the failure code. -/
def Uploads.updateManifestState (projectId manifestId : Uuid) (state : ManifestState) :
    Option Uploads :=
  match u.manifest projectId manifestId with
  | none => if state = .missing then some u else none
  | some m =>
    if m.state = .processing ∧ state = .missing then some u
    else if m.state.quarantinedBy.isSome then none
    else some (u.setManifest { m with state := state, debugImage := none })

def Uploads.retireStaleSession (a : ValidatedArtifact) (manifestId : Uuid) (now : Nat) :
    Uploads × Option ObjectKey :=
  u.abort <| u.sessionWhere fun s => s.projectId = a.projectId ∧ s.manifestId = manifestId ∧
    s.state = .active ∧ (s.expiresAt ≤ now ∨ s.identity ≠ a.identity)

def Uploads.conflictingSession (a : ValidatedArtifact) (manifestId : Uuid) : Bool :=
  (u.sessionWhere fun s => s.projectId = a.projectId ∧ s.manifestId = manifestId ∧
    (s.state = .completing ∨ s.state = .processing) ∧ s.identity ≠ a.identity).isSome

def Uploads.loadActiveSession (a : ValidatedArtifact) (manifestId : Uuid) (now : Nat) :
    Option Session :=
  u.sessionWhere fun s => s.projectId = a.projectId ∧ s.manifestId = manifestId ∧
    (s.state = .completing ∨ s.state = .processing ∨ (s.state = .active ∧ now < s.expiresAt))

def sessionSeconds : Nat := 24 * 60 * 60

/-- `INSERT INTO artifact_upload_sessions … SELECT … FROM release_manifest_artifacts`. -/
def Uploads.insertSession (a : ValidatedArtifact) (manifestId id : Uuid) (now : Nat) :
    Option Uploads := do
  let m ← u.manifest a.projectId manifestId
  if m.releaseId = a.releaseId ∧ m.sourcePath = a.path ∧ m.identity = a.identity then
    let sessions ← u.sessions.insert
      ⟨id, a.projectId, manifestId, a.identity, .active, now + sessionSeconds⟩
    some { u with sessions := sessions }
  else none

/-! ## Completion -/

/-- The rows of the transaction of `enqueue_artifact_index`. -/
def Uploads.enqueueArtifactIndex (session : Session) : Option Uploads := do
  let s ← u.session session.projectId session.id
  let m ← u.manifest session.projectId session.manifestId
  if s.state = .completing ∧ m.identity = session.identity then
    some ((u.moveSession s.id .completing .processing rfl).setManifest
      { m with state := .processing, debugImage := none })
  else none

/-- The key that `cleanup_duplicate_object` compares with the session's own. -/
def Uploads.canonicalObject (session : Session) : Option ArtifactObject := do
  let m ← u.manifest session.projectId session.manifestId
  let d ← u.images.find (← m.debugImage)
  u.objects.rows.find? (·.id = d.objectId)

/-! ## Indexing -/

/-- `INSERT INTO artifact_objects … ON CONFLICT (organization_id, checksum)`. -/
def Uploads.upsertObject (artifact : Session) (id : Uuid) : Option (Uploads × ArtifactObject) :=
  match u.objects.find artifact.identity.checksum with
  | some o => some (u, o)
  | none =>
    let o : ArtifactObject :=
      ⟨id, artifact.objectKey, artifact.identity.checksum, artifact.identity.byteSize, .stored⟩
    if u.objects.rows.any fun x => x.objectKey = o.objectKey ∨ x.id = o.id then none
    else some ({ u with objects := u.objects.insert o }, o)

def Uploads.upsertImage (artifact : Session) (o : ArtifactObject) (id : Uuid) :
    Option (Uploads × Uuid) :=
  let i := artifact.identity
  match u.images.rows.find? fun d => d.objectId = o.id ∧ d.artifactType = i.artifactType ∧
      d.debugId = i.debugId ∧ d.codeId.getD "" = i.codeId.getD "" with
  | some d =>
    some
      ({ u with
          images := u.images.modify d.id (fun d => { d with status := .available }) fun _ => rfl },
        d.id)
  | none =>
    if (u.images.find id).isSome then none
    else
      some
        ({ u with
            images := u.images.insert
              ⟨id, o.id, i.artifactType, i.moduleName, i.architecture, i.debugId, i.codeId,
                .available⟩ },
          id)

/-- The guarded updates that end the manifest row and the session of an indexed artifact. -/
def Uploads.endArtifact (artifact : Session) (session : SessionState) (manifest : ManifestState)
    (image : Option Uuid) : Option Uploads := do
  let m ← u.manifest artifact.projectId artifact.manifestId
  let s ← u.session artifact.projectId artifact.id
  if m.state = .processing ∧ m.identity = artifact.identity ∧ s.state = .processing ∧
      s.identity = artifact.identity then
    some ((u.setManifest { m with state := manifest, debugImage := image }).moveSession s.id
      .processing session rfl)
  else none

/-- The rows of `publish_artifact`, and the key of the object that it settles on. -/
def Uploads.publishArtifact (artifact : Session) (objectId imageId : Uuid) :
    Option (Uploads × ObjectKey) := do
  let (u, o) ← u.upsertObject artifact objectId
  let (u, image) ← u.upsertImage artifact o imageId
  let u ← u.endArtifact artifact .completed .available (some image)
  some (u, o.objectKey)

def Uploads.publishArtifactFailure (artifact : Session) (code : String) (quarantine : Bool) :
    Option Uploads :=
  u.endArtifact artifact (.failed code) (if quarantine then .quarantined code else .mismatch) none

/-- What `finish_failure` does to an upload. -/
def Uploads.failArtifact (projectId uploadId : Uuid) (code : String) : Option Uploads := do
  let s ← u.session projectId uploadId
  let m ← u.manifest projectId s.manifestId
  if s.state = .processing ∧ m.state = .processing then
    some ((u.moveSession s.id .processing (.failed code) rfl).setManifest
      { m with state := .quarantined code, debugImage := none })
  else none

end statements
end FaultLane.SymbolUpload
