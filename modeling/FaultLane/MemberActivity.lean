import FaultLane.MembershipsRuns

set_option autoImplicit false

/-!
# What the members of an organization leave behind

The rows of an organization that refer to its members by a foreign key: upload tokens, the
manifests and sessions that are uploaded with them, and requests to process crashes again. None of
them is ever deleted. A removal of a member fails in its `DELETE` while such a row refers to it.
-/
namespace FaultLane.MemberActivity
open KeyedTable JobQueue TransitionSystem
open Memberships (Role Change Request Stage)

/-- The permission `ManageProject`. -/
def managesProject : Role → Bool
  | .owner | .admin => true
  | .developer | .viewer => false

/-- The permission `ManageIssue`. -/
def managesIssues : Role → Bool
  | .owner | .admin | .developer => true
  | .viewer => false

/-! ## Rows -/

structure UploadToken where
  id : Uuid
  createdBy : Uuid
  revoked : Bool
  deriving DecidableEq, Repr

/-- A row of `release_manifest_artifacts`, which has its release and path alone. -/
structure ManifestArtifact where
  id : Uuid
  releaseId : Uuid
  sourcePath : String
  uploadedBy : Uuid
  uploadToken : Uuid
  deriving DecidableEq, Repr

structure UploadSession where
  id : Uuid
  manifestArtifact : Uuid
  uploadedBy : Uuid
  uploadToken : Uuid
  deriving DecidableEq, Repr

/-- A manual request has the user that asked for it, an automatic one has none. -/
structure ReprocessingRequest where
  id : Uuid
  requestedBy : Option Uuid
  deriving DecidableEq, Repr

inductive Work where
  | createToken
  | upload (token : Uuid)
  | requestReprocessing
  deriving DecidableEq, Repr

/-- A call that has been authorized, with the user of its session or of its upload token. -/
structure Call where
  id : Uuid
  userId : Uuid
  work : Work
  deriving DecidableEq, Repr

structure State where
  organization : Memberships.State
  calls : Table Call.id
  tokens : Table UploadToken.id
  manifests : Table ManifestArtifact.id
  sessions : Table UploadSession.id
  requests : Table ReprocessingRequest.id

/-- The member whose row a transaction has deleted and not yet committed. -/
def removed : Stage → Option Uuid
  | .written c _ _ => if c.role = none then some c.target else none
  | _ => none

section state
variable (s : State)

def State.removing (userId : Uuid) : Prop :=
  ∃ t ∈ s.organization.transactions.rows, removed t.stage = some userId

instance (userId : Uuid) : Decidable (s.removing userId) :=
  inferInstanceAs (Decidable (∃ t ∈ _, _))

/-- The foreign key of an inserted row: a member, whose row no transaction is deleting. -/
def State.keyed (userId : Uuid) : Prop :=
  (s.organization.db.role userId).isSome ∧ ¬ s.removing userId

instance (userId : Uuid) : Decidable (s.keyed userId) := inferInstanceAs (Decidable (_ ∧ _))

/-- A row refers to the member. -/
def State.refers (userId : Uuid) : Prop :=
  (∃ x ∈ s.tokens.rows, x.createdBy = userId) ∨ (∃ x ∈ s.manifests.rows, x.uploadedBy = userId) ∨
    (∃ x ∈ s.sessions.rows, x.uploadedBy = userId) ∨
    ∃ x ∈ s.requests.rows, x.requestedBy = some userId

instance (userId : Uuid) : Decidable (s.refers userId) :=
  inferInstanceAs (Decidable ((∃ x ∈ _, _) ∨ (∃ x ∈ _, _) ∨ (∃ x ∈ _, _) ∨ ∃ x ∈ _, _))

end state

/-! ## Statements -/

section statements
variable (s : State) (c : Uuid)

def State.startCall (userId : Uuid) (work : Work) : Option State :=
  if (s.calls.find c).isSome then none
  else some { s with calls := s.calls.insert ⟨c, userId, work⟩ }

/-- `authorize_project`, for the role that the work needs. -/
def authorizeProject (userId : Uuid) (work : Work) : Option State := do
  let role ← s.organization.db.role userId
  match work with
  | .createToken => if managesProject role then s.startCall c userId work else none
  | .requestReprocessing => if managesIssues role then s.startCall c userId work else none
  | .upload _ => none

/-- `authorize_upload`, with a token that is not revoked. -/
def authorizeUpload (token : Uuid) : Option State := do
  let x ← s.tokens.find token
  if x.revoked then none else s.startCall c x.createdBy (.upload token)

/-- The `INSERT` of `create_upload_token`. -/
def insertToken (token : Uuid) : Option State := do
  let x ← s.calls.find c
  if x.work = .createToken ∧ s.keyed x.userId ∧ s.tokens.find token = none then
    some { s with tokens := s.tokens.insert ⟨token, x.userId, false⟩ }
  else none

/-- `revoke_upload_token`. -/
def revokeToken (userId token : Uuid) : Option State := do
  let role ← s.organization.db.role userId
  if managesProject role then
    some { s with
      tokens := s.tokens.modify token (fun x => { x with revoked := true }) fun _ => rfl }
  else none

def State.manifestAt (releaseId : Uuid) (sourcePath : String) : Option ManifestArtifact :=
  s.manifests.rows.find? fun m => m.releaseId = releaseId ∧ m.sourcePath = sourcePath

/-- `try_upsert_manifest_artifact`, when its checks of the other columns let it through. -/
def upsertManifest (manifest releaseId : Uuid) (sourcePath : String) : Option State := do
  let x ← s.calls.find c
  match x.work with
  | .upload token =>
    if s.keyed x.userId then
      match s.manifestAt releaseId sourcePath with
      | some m =>
        some { s with
          manifests := s.manifests.modify m.id
            (fun m => { m with uploadedBy := x.userId, uploadToken := token }) fun _ => rfl }
      | none =>
        if s.manifests.find manifest = none then
          some { s with
            manifests := s.manifests.insert
              ⟨manifest, releaseId, sourcePath, x.userId, token⟩ }
        else none
    else none
  | _ => none

/-- The `INSERT` of an upload session for a manifest. -/
def insertSession (session manifest : Uuid) : Option State := do
  let x ← s.calls.find c
  match x.work with
  | .upload token =>
    if s.keyed x.userId ∧ (s.manifests.find manifest).isSome ∧ s.sessions.find session = none then
      some { s with sessions := s.sessions.insert ⟨session, manifest, x.userId, token⟩ }
    else none
  | _ => none

/-- The `INSERT` of `create_request`. -/
def insertRequest (request : Uuid) : Option State := do
  let x ← s.calls.find c
  if x.work = .requestReprocessing ∧ s.keyed x.userId ∧ s.requests.find request = none then
    some { s with requests := s.requests.insert ⟨request, some x.userId⟩ }
  else none

/-- An automatic request, for an artifact or for a version of the rules. -/
def insertAutomatic (request : Uuid) : Option State :=
  if s.requests.find request = none then
    some { s with requests := s.requests.insert ⟨request, none⟩ }
  else none

/-- The member whose row the `DELETE` of `remove_member` is to delete. -/
def State.deletes : Memberships.Action → Option Uuid
  | .writeChange t =>
    match s.organization.stage t with
    | some (.ready c _ _) => if c.role = none then some c.target else none
    | _ => none
  | _ => none

/-- It fails while a row refers to the member. -/
def State.violates (a : Memberships.Action) : Prop := ∃ userId ∈ s.deletes a, s.refers userId

instance (a : Memberships.Action) : Decidable (s.violates a) :=
  inferInstanceAs (Decidable (∃ userId ∈ _, _))

def membershipStep (a : Memberships.Action) : Option State :=
  if s.violates a then none
  else (Memberships.step s.organization a).map fun o => { s with organization := o }

end statements

/-! ## Runs -/

inductive Action where
  | membership (a : Memberships.Action)
  | authorizeProject (c userId : Uuid) (work : Work)
  | authorizeUpload (c token : Uuid)
  | insertToken (c token : Uuid)
  | revokeToken (userId token : Uuid)
  | upsertManifest (c manifest releaseId : Uuid) (sourcePath : String)
  | insertSession (c session manifest : Uuid)
  | insertRequest (c request : Uuid)
  | insertAutomatic (request : Uuid)
  | endCall (c : Uuid)
  deriving DecidableEq, Repr

def step (s : State) : Action → Option State
  | .membership a => membershipStep s a
  | .authorizeProject c userId work => authorizeProject s c userId work
  | .authorizeUpload c token => authorizeUpload s c token
  | .insertToken c token => insertToken s c token
  | .revokeToken userId token => revokeToken s userId token
  | .upsertManifest c manifest releaseId sourcePath =>
    upsertManifest s c manifest releaseId sourcePath
  | .insertSession c session manifest => insertSession s c session manifest
  | .insertRequest c request => insertRequest s c request
  | .insertAutomatic request => insertAutomatic s request
  | .endCall c => some { s with calls := s.calls.delete c }

/-- An organization without activity. -/
structure State.Initial (s : State) : Prop where
  organization : s.organization.Initial
  calls : s.calls = .empty
  tokens : s.tokens = .empty
  manifests : s.manifests = .empty
  sessions : s.sessions = .empty
  requests : s.requests = .empty

/-- `remove_member`, statement by statement. -/
def removal (t caller target : Uuid) : List Action :=
  (Memberships.changed t caller (.removeMember target)).map .membership

def removeMember (s : State) (t caller target : Uuid) : Option State :=
  run step (fun _ => True) s (removal t caller target)

end FaultLane.MemberActivity
