import FaultLane.JobQueue
import FaultLane.KeyedTable
import FaultLane.TransitionSystem

set_option autoImplicit false

/-!
# Memberships of an organization

The transactions of one organization, statement by statement. What a transaction has written
becomes visible with its commit, and the locks that it holds follow from how far it has come.
A statement that has to wait for a lock is not yet executed, and one that fails is followed by
a rollback.
-/
namespace FaultLane.Memberships
open KeyedTable JobQueue

def invitationSeconds : Nat := 7 * 24 * 60 * 60

inductive Role where
  | owner
  | admin
  | developer
  | viewer
  deriving DecidableEq, Repr

/-- The permission `ManageMembers`. -/
def Role.managesMembers : Role → Bool
  | .owner | .admin => true
  | .developer | .viewer => false

/-- The roles that an admin neither gives nor takes. -/
def Role.privileged : Role → Bool
  | .owner | .admin => true
  | .developer | .viewer => false

def Role.rank : Role → Nat
  | .owner => 3
  | .admin => 2
  | .developer => 1
  | .viewer => 0

/-! ## Rows -/

/-- A user, with the normalized email, which no statement changes. -/
structure User where
  id : Uuid
  email : String
  deriving DecidableEq, Repr

structure Member where
  userId : Uuid
  role : Role
  deriving DecidableEq, Repr

structure Invitation where
  id : Uuid
  email : String
  role : Role
  expiresAt : Nat
  acceptedAt : Option Nat
  revokedAt : Option Nat
  deriving DecidableEq, Repr

/-- The rows of the index `organization_invitations_active_email`. -/
def Invitation.active (i : Invitation) : Prop := i.acceptedAt = none ∧ i.revokedAt = none

instance (i : Invitation) : Decidable i.active := inferInstanceAs (Decidable (_ ∧ _))

/-- `update_member` with the new role, or `remove_member`. -/
structure Change where
  caller : Uuid
  target : Uuid
  role : Option Role
  deriving DecidableEq, Repr

structure Database where
  users : Table User.id
  members : Table Member.userId
  invitations : Table Invitation.id

section database
variable (db : Database)

def Database.role (userId : Uuid) : Option Role := (db.members.find userId).map Member.role

def Database.userWith (email : String) : Option User :=
  db.users.rows.find? fun u => u.email = email

def Database.hasMember (email : String) : Prop :=
  ∃ m ∈ db.members.rows, ∃ u ∈ db.users.find m.userId, u.email = email

instance (email : String) : Decidable (db.hasMember email) :=
  inferInstanceAs (Decidable (∃ m ∈ _, ∃ u ∈ _, _))

def Database.hasOwner : Prop := ∃ m ∈ db.members.rows, m.role = .owner

instance : Decidable db.hasOwner := inferInstanceAs (Decidable (∃ m ∈ _, _))

def Database.setRole (userId : Uuid) (role : Role) : Table Member.userId :=
  db.members.modify userId (fun m => { m with role := role }) fun _ => rfl

/-- The `ON CONFLICT (organization_id, user_id) DO UPDATE` of `accept_invitation`. -/
def Database.upsertMember (userId : Uuid) (role : Role) : Table Member.userId :=
  if (db.members.find userId).isSome then db.setRole userId role
  else db.members.insert ⟨userId, role⟩

/-- The membership after a change of it. -/
def Database.changeMember (c : Change) : Database :=
  { db with
    members :=
      match c.role with
      | some role => db.setRole c.target role
      | none => db.members.delete c.target }

def Database.setInvitation (invitationId : Uuid) (f : Invitation → Invitation)
    (hf : ∀ i, (f i).id = i.id) : Database :=
  { db with invitations := db.invitations.modify invitationId f hf }

/-- What an acceptance of an invitation writes, for a user that it may have created. -/
def Database.acceptInvitation (i : Invitation) (userId : Uuid) (isNew : Bool) (now : Nat) :
    Database where
  users := if isNew then db.users.insert ⟨userId, i.email⟩ else db.users
  members := db.upsertMember userId i.role
  invitations :=
    (db.setInvitation i.id (fun i => { i with acceptedAt := some now }) fun _ => rfl).invitations

end database

/-! ## Transactions -/

inductive Request where
  | createInvitation (email : String) (role : Role)
  | revokeInvitation (invitationId : Uuid)
  | updateMember (userId : Uuid) (role : Role)
  | removeMember (userId : Uuid)
  deriving DecidableEq, Repr

def Request.change (caller : Uuid) : Request → Option Change
  | .updateMember userId role => some ⟨caller, userId, some role⟩
  | .removeMember userId => some ⟨caller, userId, none⟩
  | _ => none

/-- The check of the roles that are read under the lock. -/
def Change.permitted (c : Change) (callerRole targetRole : Role) : Prop :=
  callerRole.managesMembers ∧
    (callerRole = .admin → ¬ targetRole.privileged ∧ ∀ role ∈ c.role, ¬ role.privileged)

instance (c : Change) (r r' : Role) : Decidable (c.permitted r r') :=
  inferInstanceAs (Decidable (_ ∧ (_ → _ ∧ _)))

/-- An acceptance by the time of its transaction, which holds the row of the invitation. -/
structure Acceptance where
  startedAt : Nat
  invitation : Invitation
  deriving DecidableEq, Repr

/-- How far a transaction has come, with what it has read. -/
inductive Stage where
  | authorized (caller : Uuid) (callerRole : Role) (request : Request)
  | inviting (email : String) (role : Role) (startedAt : Nat)
  | delivering (invitationId : Uuid)
  | begun (startedAt : Nat)
  | accepting (a : Acceptance)
  | identified (a : Acceptance) (userId : Uuid) (isNew : Bool)
  | joined (a : Acceptance) (userId : Uuid) (isNew : Bool)
  | locked (c : Change)
  | callerRead (c : Change) (callerRole : Role)
  | targetRead (c : Change) (callerRole targetRole : Role)
  | ready (c : Change) (callerRole targetRole : Role)
  | written (c : Change) (callerRole targetRole : Role)
  deriving DecidableEq, Repr

/-- The invitation whose row is locked. -/
def Stage.invitation : Stage → Option Invitation
  | .accepting a | .identified a _ _ | .joined a _ _ => some a.invitation
  | _ => none

/-- The email whose advisory lock `insert_identity_session` took. -/
def Stage.email : Stage → Option String
  | .identified a _ _ | .joined a _ _ => some a.invitation.email
  | _ => none

/-- The member whose row is written. -/
def Stage.member : Stage → Option Uuid
  | .joined _ userId _ => some userId
  | .written c _ _ => some c.target
  | _ => none

/-- The change for which the advisory lock of the organization is held. -/
def Stage.change : Stage → Option Change
  | .locked c | .callerRead c _ | .targetRead c _ _ | .ready c _ _ | .written c _ _ => some c
  | _ => none

structure Transaction where
  id : Uuid
  stage : Stage
  deriving DecidableEq, Repr

structure State where
  now : Nat
  db : Database
  transactions : Table Transaction.id

section state
variable (s : State)

def State.stage (t : Uuid) : Option Stage := (s.transactions.find t).map Transaction.stage

def State.start (t : Uuid) (stage : Stage) : Option State :=
  if (s.transactions.find t).isSome then none
  else some { s with transactions := s.transactions.insert ⟨t, stage⟩ }

def State.put (t : Uuid) (stage : Stage) : State :=
  { s with
    transactions := s.transactions.modify t (fun t => { t with stage := stage }) fun _ => rfl }

def State.finish (t : Uuid) : State := { s with transactions := s.transactions.delete t }

def State.invitationLocked (invitationId : Uuid) : Prop :=
  ∃ t ∈ s.transactions.rows, ∃ i ∈ t.stage.invitation, i.id = invitationId

def State.emailLocked (email : String) : Prop :=
  ∃ t ∈ s.transactions.rows, t.stage.email = some email

def State.memberLocked (userId : Uuid) : Prop :=
  ∃ t ∈ s.transactions.rows, t.stage.member = some userId

def State.organizationLocked : Prop := ∃ t ∈ s.transactions.rows, t.stage.change.isSome

instance (invitationId : Uuid) : Decidable (s.invitationLocked invitationId) :=
  inferInstanceAs (Decidable (∃ t ∈ _, ∃ i ∈ _, _))

instance (email : String) : Decidable (s.emailLocked email) :=
  inferInstanceAs (Decidable (∃ t ∈ _, _))

instance (userId : Uuid) : Decidable (s.memberLocked userId) :=
  inferInstanceAs (Decidable (∃ t ∈ _, _))

instance : Decidable s.organizationLocked := inferInstanceAs (Decidable (∃ t ∈ _, _))

end state

/-! ## Statements -/

section statements
variable (s : State) (t : Uuid)

/-- `authorize_organization`. -/
def authorize (caller : Uuid) (request : Request) : Option State := do
  let callerRole ← s.db.role caller
  if callerRole.managesMembers then s.start t (.authorized caller callerRole request) else none

/-- The snapshot of the `INSERT` of `create_invitation`, in which its `NOT EXISTS` looks for a
member. -/
def createInvitation : Option State :=
  match s.stage t with
  | some (.authorized _ callerRole (.createInvitation email role)) =>
    if (callerRole = .admin → ¬ role.privileged) ∧ ¬ s.db.hasMember email then
      some (s.put t (.inviting email role s.now))
    else none
  | _ => none

/-- The insertion, for which the unique index waits for the transactions on active invitations
of the email. -/
def insertInvitation (invitationId : Uuid) : Option State :=
  match s.stage t with
  | some (.inviting email role startedAt) =>
    if (s.db.invitations.find invitationId).isSome ∨
        ∃ i ∈ s.db.invitations.rows, i.active ∧ i.email = email then none
    else
      some { s.put t (.delivering invitationId) with
        db := { s.db with
          invitations := s.db.invitations.insert
            ⟨invitationId, email, role, startedAt + invitationSeconds, none, none⟩ } }
  | _ => none

/-- The end of `create_invitation`, which revokes what could not be delivered. -/
def deliver (delivered : Bool) : Option State :=
  match s.stage t with
  | some (.delivering invitationId) =>
    if delivered then some (s.finish t)
    else if s.invitationLocked invitationId then none
    else
      some { s.finish t with
        db := s.db.setInvitation invitationId (fun i => { i with revokedAt := some s.now })
          fun _ => rfl }
  | _ => none

def revokeInvitation : Option State :=
  match s.stage t with
  | some (.authorized _ _ (.revokeInvitation invitationId)) =>
    if s.invitationLocked invitationId then none
    else
      match s.db.invitations.find invitationId with
      | some i =>
        if i.acceptedAt = none then
          some { s.finish t with
            db := s.db.setInvitation invitationId
              (fun i => { i with revokedAt := some (i.revokedAt.getD s.now) }) fun _ => rfl }
        else none
      | none => none
  | _ => none

/-- The start of the transaction of `accept_invitation`, which is its `now()`. -/
def beginAcceptance : Option State := s.start t (.begun s.now)

/-- Its `SELECT … FOR UPDATE` by the token. -/
def lockInvitation (invitationId : Uuid) : Option State :=
  match s.stage t with
  | some (.begun startedAt) =>
    match s.db.invitations.find invitationId with
    | some i =>
      if i.active ∧ startedAt < i.expiresAt ∧ ¬ s.invitationLocked invitationId then
        some (s.put t (.accepting ⟨startedAt, i⟩))
      else none
    | none => none
  | _ => none

/-- `insert_identity_session`, with the id for a new user. -/
def identify (newId : Uuid) : Option State :=
  match s.stage t with
  | some (.accepting a) =>
    if s.emailLocked a.invitation.email then none
    else
      match s.db.userWith a.invitation.email with
      | some u => some (s.put t (.identified a u.id false))
      | none => some (s.put t (.identified a newId true))
  | _ => none

/-- The upsert of the membership. -/
def join : Option State :=
  match s.stage t with
  | some (.identified a userId isNew) =>
    if s.memberLocked userId then none else some (s.put t (.joined a userId isNew))
  | _ => none

/-- The rest of `accept_invitation`. A new user has to keep the keys of the table. -/
def commitAcceptance : Option State :=
  match s.stage t with
  | some (.joined a userId isNew) =>
    if isNew ∧ ((s.db.users.find userId).isSome ∨
        (s.db.userWith a.invitation.email).isSome) then none
    else
      some { s.finish t with
        db := s.db.acceptInvitation a.invitation userId isNew a.startedAt }
  | _ => none

/-- `lock_organization`. -/
def lockOrganization : Option State :=
  match s.stage t with
  | some (.authorized caller _ request) =>
    match request.change caller with
    | some c => if s.organizationLocked then none else some (s.put t (.locked c))
    | none => none
  | _ => none

/-- `member_role` of the caller. -/
def readCaller : Option State :=
  match s.stage t with
  | some (.locked c) =>
    match s.db.role c.caller with
    | some callerRole =>
      if callerRole.managesMembers then some (s.put t (.callerRead c callerRole)) else none
    | none => none
  | _ => none

/-- `member_role` of the target. -/
def readTarget : Option State :=
  match s.stage t with
  | some (.callerRead c callerRole) =>
    match s.db.role c.target with
    | some targetRole =>
      if c.permitted callerRole targetRole then
        some (s.put t (.targetRead c callerRole targetRole))
      else none
    | none => none
  | _ => none

/-- `require_another_owner`, when an owner is changed into something else or removed. -/
def requireAnotherOwner : Option State :=
  match s.stage t with
  | some (.targetRead c callerRole targetRole) =>
    if targetRole = .owner ∧ c.role ≠ some .owner ∧
        ¬ ∃ m ∈ s.db.members.rows, m.userId ≠ c.target ∧ m.role = .owner then none
    else some (s.put t (.ready c callerRole targetRole))
  | _ => none

/-- The `UPDATE` or the `DELETE` of the membership. -/
def writeChange : Option State :=
  match s.stage t with
  | some (.ready c callerRole targetRole) =>
    if s.memberLocked c.target ∨ (s.db.members.find c.target).isNone then none
    else some (s.put t (.written c callerRole targetRole))
  | _ => none

def commitChange : Option State :=
  match s.stage t with
  | some (.written c _ _) => some { s.finish t with db := s.db.changeMember c }
  | _ => none

/-- `create_identity_session` for an email that has no user yet. -/
def signIn (userId : Uuid) (email : String) : Option State :=
  if (s.db.users.find userId).isSome ∨ (s.db.userWith email).isSome ∨ s.emailLocked email then none
  else some { s with db := { s.db with users := s.db.users.insert ⟨userId, email⟩ } }

end statements

/-! ## Runs -/

inductive Action where
  | tick (seconds : Nat)
  | signIn (userId : Uuid) (email : String)
  | authorize (t caller : Uuid) (request : Request)
  | createInvitation (t : Uuid)
  | insertInvitation (t invitationId : Uuid)
  | deliver (t : Uuid) (delivered : Bool)
  | revokeInvitation (t : Uuid)
  | beginAcceptance (t : Uuid)
  | lockInvitation (t invitationId : Uuid)
  | identify (t newId : Uuid)
  | join (t : Uuid)
  | commitAcceptance (t : Uuid)
  | lockOrganization (t : Uuid)
  | readCaller (t : Uuid)
  | readTarget (t : Uuid)
  | requireAnotherOwner (t : Uuid)
  | writeChange (t : Uuid)
  | commitChange (t : Uuid)
  | rollback (t : Uuid)
  deriving DecidableEq, Repr

def step (s : State) : Action → Option State
  | .tick seconds => some { s with now := s.now + seconds }
  | .signIn userId email => signIn s userId email
  | .authorize t caller request => authorize s t caller request
  | .createInvitation t => createInvitation s t
  | .insertInvitation t invitationId => insertInvitation s t invitationId
  | .deliver t delivered => deliver s t delivered
  | .revokeInvitation t => revokeInvitation s t
  | .beginAcceptance t => beginAcceptance s t
  | .lockInvitation t invitationId => lockInvitation s t invitationId
  | .identify t newId => identify s t newId
  | .join t => join s t
  | .commitAcceptance t => commitAcceptance s t
  | .lockOrganization t => lockOrganization s t
  | .readCaller t => readCaller s t
  | .readTarget t => readTarget s t
  | .requireAnotherOwner t => requireAnotherOwner s t
  | .writeChange t => writeChange s t
  | .commitChange t => commitChange s t
  | .rollback t => some (s.finish t)

/-- The constraints of the tables. -/
structure Database.Valid (db : Database) : Prop where
  emails : (db.users.rows.map User.email).Nodup
  users : ∀ m ∈ db.members, (db.users.find m.userId).isSome
  active : ∀ i ∈ db.invitations, ∀ j ∈ db.invitations, i.active → j.active →
    i.email = j.email → i = j

/-- An organization with an owner, none of whose members has an active invitation. -/
structure State.Initial (s : State) : Prop where
  transactions : s.transactions = .empty
  valid : s.db.Valid
  owner : s.db.hasOwner
  apart : ∀ i ∈ s.db.invitations, i.active → ¬ s.db.hasMember i.email

end FaultLane.Memberships
