import FaultLane.Memberships
import Mathlib.Tactic.SplitIfs

set_option autoImplicit false

/-!
# Organizations keep an owner

A member's role is changed under the lock of the organization, or by an acceptance of an
invitation whose email belongs to a member already. The latter needs an invitation whose statement
did not see the acceptance before it.
-/
namespace FaultLane.Memberships
open KeyedTable JobQueue TransitionSystem

/-! ## What transactions rely on -/

section fits
variable (db : Database)

def Database.Holds (a : Acceptance) : Prop := a.invitation ∈ db.invitations ∧ a.invitation.active

def Database.Identifies (a : Acceptance) (userId : Uuid) (isNew : Bool) : Prop :=
  isNew = false → ∃ u ∈ db.users, u.id = userId ∧ u.email = a.invitation.email

def Database.Reads (c : Change) (callerRole targetRole : Role) : Prop :=
  db.role c.caller = some callerRole ∧ db.role c.target = some targetRole ∧
    c.permitted callerRole targetRole

def Database.OwnerBesides (c : Change) (targetRole : Role) : Prop :=
  targetRole = .owner → c.role ≠ some .owner → ∃ m ∈ db.members, m.userId ≠ c.target ∧
    m.role = .owner

/-- What a transaction has read is still so. -/
def Database.Fits : Stage → Prop
  | .inviting email _ _ => ¬ db.hasMember email
  | .accepting a => db.Holds a
  | .identified a userId isNew | .joined a userId isNew => db.Holds a ∧
      db.Identifies a userId isNew
  | .callerRead c callerRole => db.role c.caller = some callerRole ∧ callerRole.managesMembers
  | .targetRead c callerRole targetRole => db.Reads c callerRole targetRole
  | .ready c callerRole targetRole | .written c callerRole targetRole =>
    db.Reads c callerRole targetRole ∧ db.OwnerBesides c targetRole
  | _ => True

/-- The email that an insertion has not found among the members. -/
def Stage.invited : Stage → Option String
  | .inviting email _ _ => some email
  | _ => none

variable {db} {db' : Database}

theorem role_eq_some {userId : Uuid} {role : Role} :
    db.role userId = some role ↔ (⟨userId, role⟩ : Member) ∈ db.members := by
  unfold Database.role
  rw [Option.map_eq_some_iff]
  constructor
  · rintro ⟨m, hm, rfl⟩
    obtain ⟨hmem, rfl⟩ := Table.find_eq_some.mp hm
    exact hmem
  · intro hm
    exact ⟨_, Table.find_eq_some.mpr ⟨hm, rfl⟩, rfl⟩

theorem Database.Fits.mono {stage : Stage} (h : db.Fits stage)
    (hinvited : ∀ email ∈ stage.invited, db'.hasMember email → db.hasMember email)
    (hinvitation : ∀ i ∈ stage.invitation, i ∈ db.invitations → i ∈ db'.invitations)
    (husers : ∀ u ∈ db.users, u ∈ db'.users)
    (hmembers : stage.change.isSome → ∀ m ∈ db.members, m ∈ db'.members) : db'.Fits stage := by
  have hrole : stage.change.isSome → ∀ {userId : Uuid} {role : Role},
      db.role userId = some role → db'.role userId = some role := fun hchange _ _ hrole =>
    role_eq_some.mpr (hmembers hchange _ (role_eq_some.mp hrole))
  have hidentifies : ∀ {a : Acceptance} {userId : Uuid} {isNew : Bool},
      db.Identifies a userId isNew → db'.Identifies a userId isNew := by
    intro a userId isNew hid hnew
    obtain ⟨u, hu, hfound⟩ := hid hnew
    exact ⟨u, husers u hu, hfound⟩
  have hbesides : stage.change.isSome → ∀ {c : Change} {targetRole : Role},
      db.OwnerBesides c targetRole → db'.OwnerBesides c targetRole := by
    intro hchange c targetRole hb howner hother
    obtain ⟨m, hm, hfound⟩ := hb howner hother
    exact ⟨m, hmembers hchange m hm, hfound⟩
  cases stage with
  | authorized caller callerRole request => trivial
  | inviting email role startedAt => exact fun hmember => h (hinvited email rfl hmember)
  | delivering invitationId => trivial
  | begun startedAt => trivial
  | accepting a => exact ⟨hinvitation _ rfl h.1, h.2⟩
  | identified a userId isNew => exact ⟨⟨hinvitation _ rfl h.1.1, h.1.2⟩, hidentifies h.2⟩
  | joined a userId isNew => exact ⟨⟨hinvitation _ rfl h.1.1, h.1.2⟩, hidentifies h.2⟩
  | locked c => trivial
  | callerRead c callerRole => exact ⟨hrole rfl h.1, h.2⟩
  | targetRead c callerRole targetRole => exact ⟨hrole rfl h.1, hrole rfl h.2.1, h.2.2⟩
  | ready c callerRole targetRole =>
    exact ⟨⟨hrole rfl h.1.1, hrole rfl h.1.2.1, h.1.2.2⟩, hbesides rfl h.2⟩
  | written c callerRole targetRole =>
    exact ⟨⟨hrole rfl h.1.1, hrole rfl h.1.2.1, h.1.2.2⟩, hbesides rfl h.2⟩

end fits

/-- The transactions of a state: what each relies on, and that locks have one holder. -/
structure Consistent (db : Database) (ts : Table Transaction.id) : Prop where
  fits : ∀ t ∈ ts, db.Fits t.stage
  lock : ∀ t ∈ ts, ∀ t' ∈ ts, t.stage.change.isSome → t'.stage.change.isSome → t = t'
  accepts : ∀ t ∈ ts, ∀ t' ∈ ts, ∀ i ∈ t.stage.invitation, ∀ i' ∈ t'.stage.invitation,
    i.id = i'.id → t = t'

structure Database.Sound (db : Database) : Prop where
  valid : db.Valid
  owner : db.hasOwner
  apart : ∀ i ∈ db.invitations, i.active → ¬ db.hasMember i.email

structure State.Sound (s : State) : Prop where
  db : s.db.Sound
  transactions : Consistent s.db s.transactions

/-! ## Transactions come and go -/

section transactions
variable {db db' : Database} {ts ts' : Table Transaction.id}

theorem Consistent.subset (h : Consistent db ts) (hsub : ∀ t ∈ ts', t ∈ ts) :
    Consistent db ts' :=
  ⟨fun t ht => h.fits t (hsub t ht), fun t ht t' ht' => h.lock t (hsub t ht) t' (hsub t' ht'),
    fun t ht t' ht' => h.accepts t (hsub t ht) t' (hsub t' ht')⟩

theorem Consistent.delete (h : Consistent db ts) (t : Uuid) : Consistent db (ts.delete t) :=
  h.subset fun _ hx => (Table.mem_delete.mp hx).1

/-- One transaction is new or in another stage, with the locks that it had or that were free. -/
theorem Consistent.update (h : Consistent db ts) (new : Transaction)
    (hts : ∀ t ∈ ts', t = new ∨ t ∈ ts ∧ t.id ≠ new.id) (hfits : db.Fits new.stage)
    (hlock : new.stage.change.isSome → ∀ t ∈ ts, t.id ≠ new.id → t.stage.change = none)
    (haccepts : ∀ i ∈ new.stage.invitation, ∀ t ∈ ts, t.id ≠ new.id →
      ∀ i' ∈ t.stage.invitation, i'.id ≠ i.id) : Consistent db ts' := by
  refine ⟨fun t ht => ?_, fun t ht t' ht' hc hc' => ?_, fun t ht t' ht' i hi i' hi' hid => ?_⟩
  · rcases hts t ht with rfl | ⟨ht, -⟩
    · exact hfits
    · exact h.fits t ht
  · rcases hts t ht with rfl | ⟨ht, hne⟩ <;> rcases hts t' ht' with rfl | ⟨ht', hne'⟩
    · rfl
    · rw [hlock hc t' ht' hne'] at hc'
      cases hc'
    · rw [hlock hc' t ht hne] at hc
      cases hc
    · exact h.lock t ht t' ht' hc hc'
  · rcases hts t ht with rfl | ⟨ht, hne⟩ <;> rcases hts t' ht' with rfl | ⟨ht', hne'⟩
    · rfl
    · exact absurd hid.symm (haccepts i hi t' ht' hne' i' hi')
    · exact absurd hid (haccepts i' hi' t ht hne i hi)
    · exact h.accepts t ht t' ht' i hi i' hi' hid

theorem Consistent.mono (h : Consistent db ts)
    (hfits : ∀ t ∈ ts, db.Fits t.stage → db'.Fits t.stage) : Consistent db' ts :=
  ⟨fun t ht => hfits t ht (h.fits t ht), h.lock, h.accepts⟩

end transactions

section stages
variable {s s' : State} {t : Uuid} {old stage : Stage}

theorem stage_eq_some : s.stage t = some old ↔ (⟨t, old⟩ : Transaction) ∈ s.transactions := by
  unfold State.stage
  rw [Option.map_eq_some_iff]
  constructor
  · rintro ⟨x, hx, rfl⟩
    obtain ⟨hmem, rfl⟩ := Table.find_eq_some.mp hx
    exact hmem
  · intro hx
    exact ⟨_, Table.find_eq_some.mpr ⟨hx, rfl⟩, rfl⟩

theorem mem_put {x : Transaction} : x ∈ (s.put t stage).transactions ↔
    (x ∈ s.transactions ∧ x.id ≠ t) ∨ ∃ y, s.transactions.find t = some y ∧
      x = { y with stage := stage } :=
  @Table.mem_modify _ _ _ _ s.transactions t (fun y => { y with stage := stage }) (fun _ => rfl) x

theorem Consistent.put (h : Consistent s.db s.transactions) (ht : s.stage t = some old)
    (hfits : s.db.Fits stage)
    (hlock : stage.change.isSome → old.change.isSome ∨ ¬ s.organizationLocked)
    (haccepts : ∀ i ∈ stage.invitation, old.invitation = some i ∨ ¬ s.invitationLocked i.id) :
    Consistent s.db (s.put t stage).transactions := by
  have hold := stage_eq_some.mp ht
  refine h.update ⟨t, stage⟩ (fun x hx => ?_) hfits ?_ ?_
  · rcases mem_put.mp hx with hx | ⟨y, hy, rfl⟩
    · exact .inr hx
    · left
      rw [← (Table.find_eq_some.mp hy).2]
  · intro hchange x hx hne
    by_contra hx'
    have hsome : x.stage.change.isSome := Option.isSome_iff_ne_none.mpr hx'
    rcases hlock hchange with hc | hfree
    · have hid : x.id = t := congrArg Transaction.id (h.lock x hx _ hold hsome hc)
      exact hne hid
    · exact hfree ⟨x, hx, hsome⟩
  · intro i hi x hx hne i' hi' hid
    rcases haccepts i hi with hc | hfree
    · have hsame : x.id = t := congrArg Transaction.id (h.accepts x hx _ hold i' hi' i hc hid)
      exact hne hsame
    · exact hfree ⟨x, hx, i', hi', hid⟩

theorem Consistent.start (h : Consistent s.db s.transactions) (hfits : s.db.Fits stage)
    (hchange : stage.change = none) (hinvitation : stage.invitation = none)
    (hs : s.start t stage = some s') : Consistent s'.db s'.transactions := by
  unfold State.start at hs
  split_ifs at hs with hfree
  cases hs
  have hnone := Option.not_isSome_iff_eq_none.mp hfree
  refine h.update ⟨t, stage⟩ (fun x hx => ?_) hfits ?_ ?_
  · rcases (Table.mem_insert hnone).mp hx with rfl | hx
    · exact .inl rfl
    · exact .inr ⟨hx, Table.find_eq_none.mp hnone x hx⟩
  · intro hc
    rw [hchange] at hc
    cases hc
  · intro i hi
    rw [hinvitation] at hi
    cases hi

end stages

/-! ## Changes of the tables -/

section tables
variable {db : Database}

theorem hasMember_iff {email : String} : db.hasMember email ↔
    ∃ m ∈ db.members, ∃ u, db.users.find m.userId = some u ∧ u.email = email := by
  unfold Database.hasMember
  simp only [Option.mem_def, Table.mem_rows]

theorem userWith_eq_none {email : String} :
    db.userWith email = none ↔ ∀ u ∈ db.users, u.email ≠ email := by
  simp only [Database.userWith, List.find?_eq_none, decide_eq_true_eq, Table.mem_rows, ne_eq]

theorem userWith_eq_some {email : String} {u : User} (h : db.userWith email = some u) :
    u ∈ db.users ∧ u.email = email :=
  ⟨List.mem_of_find?_eq_some h, by simpa using List.find?_some h⟩

/-- A user that is new changes nothing for the others. -/
structure NewUser (users users' : Table User.id) (u : User) : Prop where
  free : users.find u.id = none
  email : ∀ x ∈ users, x.email ≠ u.email
  eq : users' = users.insert u

theorem NewUser.find {users users' : Table User.id} {u : User} (h : NewUser users users' u)
    {userId : Uuid} (hsome : (users.find userId).isSome) :
    users'.find userId = users.find userId := by
  rw [h.eq]
  refine Table.find_insert_of_ne fun hid => ?_
  rw [hid, h.free] at hsome
  cases hsome

theorem NewUser.emails {users users' : Table User.id} {u : User} (h : NewUser users users' u)
    (hnodup : (users.rows.map User.email).Nodup) : (users'.rows.map User.email).Nodup := by
  rw [h.eq, Table.rows_insert h.free, List.map_cons, List.nodup_cons]
  refine ⟨fun hmem => ?_, hnodup⟩
  obtain ⟨x, hx, hemail⟩ := List.mem_map.mp hmem
  exact h.email x hx hemail

theorem NewUser.mem {users users' : Table User.id} {u : User} (h : NewUser users users' u)
    {x : User} : x ∈ users' ↔ x = u ∨ x ∈ users := by
  rw [h.eq]
  exact Table.mem_insert h.free

theorem hasMember_mono {db' : Database} {email : String}
    (h : db'.hasMember email)
    (hmembers : ∀ m ∈ db'.members, ∃ m' ∈ db.members, m'.userId = m.userId)
    (husers : ∀ m ∈ db.members, db'.users.find m.userId = db.users.find m.userId) :
    db.hasMember email := by
  obtain ⟨m, hm, u, hu, hemail⟩ := hasMember_iff.mp h
  obtain ⟨m', hm', hid⟩ := hmembers m hm
  rw [← hid, husers m' hm'] at hu
  exact hasMember_iff.mpr ⟨m', hm', u, hu, hemail⟩

theorem NewUser.sound {users' : Table User.id} {u : User} (h : NewUser db.users users' u)
    (hdb : db.Sound) : Database.Sound { db with users := users' } := by
  have hfind : ∀ m ∈ db.members, users'.find m.userId = db.users.find m.userId := fun m hm =>
    h.find (hdb.valid.users m hm)
  refine ⟨⟨h.emails hdb.valid.emails, fun m hm => ?_, hdb.valid.active⟩, hdb.owner, ?_⟩
  · rw [show (Database.users { db with users := users' }).find m.userId = _ from hfind m hm]
    exact hdb.valid.users m hm
  · intro i hi hactive hmember
    exact hdb.apart i hi hactive (hasMember_mono hmember (fun m hm => ⟨m, hm, rfl⟩) hfind)

/-- A new invitation of an email that neither a member nor an active invitation has. -/
theorem insertInvitation_sound {i : Invitation} (h : db.Sound)
    (hnone : db.invitations.find i.id = none) (hmember : ¬ db.hasMember i.email)
    (hactive : ∀ j ∈ db.invitations, j.active → j.email ≠ i.email) :
    Database.Sound { db with invitations := db.invitations.insert i } := by
  refine ⟨⟨h.valid.emails, h.valid.users, ?_⟩, h.owner, ?_⟩
  · intro j hj k hk hja hka hemail
    rcases (Table.mem_insert hnone).mp hj with rfl | hold
    · rcases (Table.mem_insert hnone).mp hk with rfl | hk
      · rfl
      · exact absurd hemail.symm (hactive k hk hka)
    · rcases (Table.mem_insert hnone).mp hk with rfl | hk
      · exact absurd hemail (hactive j hold hja)
      · exact h.valid.active j hold k hk hja hka hemail
  · intro j hj hja
    rcases (Table.mem_insert hnone).mp hj with rfl | hj
    · exact hmember
    · exact h.apart j hj hja

theorem mem_setInvitation {invitationId : Uuid} (f : Invitation → Invitation)
    (hf : ∀ i, (f i).id = i.id) {i : Invitation} :
    i ∈ (db.setInvitation invitationId f hf).invitations ↔
      (i ∈ db.invitations ∧ i.id ≠ invitationId) ∨
        ∃ j, db.invitations.find invitationId = some j ∧ i = f j :=
  @Table.mem_modify _ _ _ _ db.invitations invitationId f hf i

/-- An invitation that is revoked. -/
theorem setInvitation_sound {invitationId : Uuid} {f : Invitation → Invitation}
    {hf : ∀ i, (f i).id = i.id} (h : db.Sound) (hrevoked : ∀ i, ¬ (f i).active) :
    (db.setInvitation invitationId f hf).Sound := by
  have hold : ∀ i ∈ (db.setInvitation invitationId f hf).invitations, i.active →
      i ∈ db.invitations := by
    intro i hi hactive
    rcases (mem_setInvitation f hf).mp hi with ⟨hi, -⟩ | ⟨j, -, rfl⟩
    · exact hi
    · exact absurd hactive (hrevoked j)
  refine ⟨⟨h.valid.emails, h.valid.users, fun i hi j hj hia hja hemail => ?_⟩, h.owner, ?_⟩
  · exact h.valid.active i (hold i hi hia) j (hold j hj hja) hia hja hemail
  · exact fun i hi hia => h.apart i (hold i hi hia) hia

end tables

/-! ## Acceptances -/

section acceptances
variable {db db' : Database} {i : Invitation} {userId : Uuid}

/-- An acceptance adds a member. -/
structure Database.Accepts (db db' : Database) (i : Invitation) (userId : Uuid) : Prop where
  find : ∀ u, (db.users.find u).isSome → db'.users.find u = db.users.find u
  users : ∀ u ∈ db.users, u ∈ db'.users
  emails : (db'.users.rows.map User.email).Nodup
  user : ∃ u, db'.users.find userId = some u ∧ u.email = i.email
  members : ∀ m, m ∈ db'.members ↔ m = ⟨userId, i.role⟩ ∨ m ∈ db.members
  fresh : ∀ m ∈ db.members, m.userId ≠ userId
  active : ∀ j ∈ db'.invitations, j.active → j ∈ db.invitations ∧ j.id ≠ i.id
  kept : ∀ j ∈ db.invitations, j.id ≠ i.id → j ∈ db'.invitations

theorem accepts_acceptInvitation (h : db.Sound) (hi : i ∈ db.invitations) (hactive : i.active)
    {isNew : Bool} (hfound : isNew = false → ∃ u ∈ db.users, u.id = userId ∧ u.email = i.email)
    (hnew : isNew = true → db.users.find userId = none ∧ db.userWith i.email = none) (now : Nat) :
    db.Accepts (db.acceptInvitation i userId isNew now) i userId := by
  have hfresh : ∀ m ∈ db.members, m.userId ≠ userId := by
    rintro m hm rfl
    cases isNew with
    | true =>
      have hsome := h.valid.users m hm
      rw [(hnew rfl).1] at hsome
      cases hsome
    | false =>
      obtain ⟨u, hu, hid, hemail⟩ := hfound rfl
      have hfind : db.users.find m.userId = some u := Table.find_eq_some.mpr ⟨hu, hid⟩
      exact h.apart i hi hactive (hasMember_iff.mpr ⟨m, hm, u, hfind, hemail⟩)
  have hnone : db.members.find userId = none := Table.find_eq_none.mpr hfresh
  have hmembers : ∀ m, m ∈ (db.acceptInvitation i userId isNew now).members ↔
      m = ⟨userId, i.role⟩ ∨ m ∈ db.members := by
    intro m
    have hupsert : db.upsertMember userId i.role = db.members.insert ⟨userId, i.role⟩ := by
      rw [Database.upsertMember, hnone]
      rfl
    rw [show (db.acceptInvitation i userId isNew now).members = _ from hupsert]
    exact Table.mem_insert hnone
  have hchanged : ∀ {j : Invitation}, j ∈ (db.acceptInvitation i userId isNew now).invitations ↔
      (j ∈ db.invitations ∧ j.id ≠ i.id) ∨ ∃ k, db.invitations.find i.id = some k ∧
        j = { k with acceptedAt := some now } :=
    mem_setInvitation (fun k => { k with acceptedAt := some now }) fun _ => rfl
  have hinvitations : ∀ j ∈ (db.acceptInvitation i userId isNew now).invitations, j.active →
      j ∈ db.invitations ∧ j.id ≠ i.id := by
    intro j hj hja
    rcases hchanged.mp hj with hj | ⟨k, -, rfl⟩
    · exact hj
    · cases hja.1
  have hkept : ∀ j ∈ db.invitations, j.id ≠ i.id →
      j ∈ (db.acceptInvitation i userId isNew now).invitations := fun j hj hne =>
    hchanged.mpr (.inl ⟨hj, hne⟩)
  cases isNew with
  | true =>
    obtain ⟨hfree, hemail⟩ := hnew rfl
    have huser : NewUser db.users (db.acceptInvitation i userId true now).users
        ⟨userId, i.email⟩ :=
      ⟨hfree, userWith_eq_none.mp hemail, rfl⟩
    refine ⟨fun u => huser.find, fun u hu => huser.mem.mpr (.inr hu), huser.emails h.valid.emails,
      ?_, hmembers, hfresh, hinvitations, hkept⟩
    exact ⟨_, Table.find_eq_some.mpr ⟨huser.mem.mpr (.inl rfl), rfl⟩, rfl⟩
  | false =>
    obtain ⟨u, hu, hid, hemail⟩ := hfound rfl
    exact ⟨fun _ _ => rfl, fun _ hu => hu, h.valid.emails,
      ⟨u, Table.find_eq_some.mpr ⟨hu, hid⟩, hemail⟩, hmembers, hfresh, hinvitations, hkept⟩

theorem Database.Accepts.hasMember (h : db.Accepts db' i userId) (hdb : db.Sound) {email : String}
    (hmember : db'.hasMember email) : db.hasMember email ∨ email = i.email := by
  obtain ⟨m, hm, u, hu, hemail⟩ := hasMember_iff.mp hmember
  rcases (h.members m).mp hm with rfl | hm
  · obtain ⟨u', hu', hemail'⟩ := h.user
    obtain rfl := Option.some.inj (hu.symm.trans hu')
    exact .inr (hemail.symm.trans hemail')
  · rw [h.find m.userId (hdb.valid.users m hm)] at hu
    exact .inl (hasMember_iff.mpr ⟨m, hm, u, hu, hemail⟩)

theorem Database.Accepts.sound (h : db.Accepts db' i userId) (hdb : db.Sound)
    (hi : i ∈ db.invitations) (hactive : i.active) : db'.Sound := by
  refine ⟨⟨h.emails, fun m hm => ?_, fun j hj k hk hja hka hemail => ?_⟩, ?_, ?_⟩
  · rcases (h.members m).mp hm with rfl | hm
    · obtain ⟨u, hu, -⟩ := h.user
      exact Option.isSome_of_mem hu
    · rw [h.find m.userId (hdb.valid.users m hm)]
      exact hdb.valid.users m hm
  · exact hdb.valid.active j (h.active j hj hja).1 k (h.active k hk hka).1 hja hka hemail
  · obtain ⟨m, hm, howner⟩ := hdb.owner
    exact ⟨m, (h.members m).mpr (.inr hm), howner⟩
  · intro j hj hja hmember
    obtain ⟨hold, hne⟩ := h.active j hj hja
    rcases h.hasMember hdb hmember with hmember | hemail
    · exact hdb.apart j hold hja hmember
    · exact hne (congrArg Invitation.id (hdb.valid.active j hold i hi hja hactive hemail))

/-- Nobody who was a member has another role. -/
theorem Database.Accepts.role (h : db.Accepts db' i userId) {u : Uuid} {r r' : Role}
    (hr : db.role u = some r) (hr' : db'.role u = some r') : r' = r := by
  have hold := role_eq_some.mp hr
  rcases (h.members _).mp (role_eq_some.mp hr') with heq | hmem
  · have hid : u = userId := congrArg Member.userId heq
    exact absurd hid (h.fresh _ hold)
  · exact congrArg Member.role (Table.eq_of_key_eq hmem hold rfl)

end acceptances

/-! ## Changes of a member -/

section changes
variable {db : Database} {c : Change} {callerRole targetRole : Role}

theorem mem_setRole {userId : Uuid} {role : Role} {m : Member} :
    m ∈ db.setRole userId role ↔ (m ∈ db.members ∧ m.userId ≠ userId) ∨
      ∃ m', db.members.find userId = some m' ∧ m = { m' with role := role } :=
  @Table.mem_modify _ _ _ _ db.members userId (fun m => { m with role := role }) (fun _ => rfl) m

/-- The members after a removal or a change of the role. -/
theorem members_changeMember : (db.changeMember c).members =
    match c.role with
    | some role => db.setRole c.target role
    | none => db.members.delete c.target := rfl

theorem mem_changeMember {m : Member} (hm : m ∈ (db.changeMember c).members) :
    ∃ m' ∈ db.members, m'.userId = m.userId := by
  rw [members_changeMember] at hm
  split at hm
  · rcases mem_setRole.mp hm with ⟨hm, -⟩ | ⟨m', hm', rfl⟩
    · exact ⟨m, hm, rfl⟩
    · exact ⟨m', (Table.find_eq_some.mp hm').1, rfl⟩
  · exact ⟨m, (Table.mem_delete.mp hm).1, rfl⟩

theorem mem_changeMember_of_ne {m : Member} (hm : m ∈ db.members) (hne : m.userId ≠ c.target) :
    m ∈ (db.changeMember c).members := by
  rw [members_changeMember]
  split
  · exact mem_setRole.mpr (.inl ⟨hm, hne⟩)
  · exact Table.mem_delete.mpr ⟨hm, hne⟩

theorem mem_changeMember_target {role : Role} (hrole : c.role = some role)
    (htarget : db.role c.target = some targetRole) :
    (⟨c.target, role⟩ : Member) ∈ (db.changeMember c).members := by
  have hfind : db.members.find c.target = some ⟨c.target, targetRole⟩ :=
    Table.find_eq_some.mpr ⟨role_eq_some.mp htarget, rfl⟩
  rw [members_changeMember, hrole]
  exact mem_setRole.mpr (.inr ⟨_, hfind, rfl⟩)

theorem changeMember_sound (h : db.Sound) (hreads : db.Reads c callerRole targetRole)
    (hbesides : db.OwnerBesides c targetRole) : (db.changeMember c).Sound := by
  refine ⟨⟨h.valid.emails, fun m hm => ?_, h.valid.active⟩, ?_, fun i hi hactive hmember => ?_⟩
  · obtain ⟨m', hm', hid⟩ := mem_changeMember hm
    rw [← hid]
    exact h.valid.users m' hm'
  · by_cases hrole : c.role = some .owner
    · exact ⟨_, mem_changeMember_target hrole hreads.2.1, rfl⟩
    have hother : ∃ m ∈ db.members, m.userId ≠ c.target ∧ m.role = .owner := by
      by_cases htarget : targetRole = .owner
      · exact hbesides htarget hrole
      · obtain ⟨m, hm, howner⟩ := h.owner
        refine ⟨m, hm, fun hid => htarget ?_, howner⟩
        have hsame := Table.eq_of_key_eq hm (role_eq_some.mp hreads.2.1) hid
        rw [hsame] at howner
        exact howner
    obtain ⟨m, hm, hne, howner⟩ := hother
    exact ⟨m, mem_changeMember_of_ne hm hne, howner⟩
  · exact h.apart i hi hactive
      (hasMember_mono hmember (fun _ => mem_changeMember) fun _ _ => rfl)

/-- Only the target has another role, the one of the request. -/
theorem role_changeMember {u : Uuid} {r r' : Role} (hr : db.role u = some r)
    (hr' : (db.changeMember c).role u = some r') : r' = r ∨ u = c.target ∧ c.role = some r' := by
  have hmem := role_eq_some.mp hr'
  by_cases hid : u = c.target
  · rw [members_changeMember] at hmem
    split at hmem
    · next role hrole =>
      rcases mem_setRole.mp hmem with ⟨-, hne⟩ | ⟨m, -, heq⟩
      · exact absurd hid hne
      · have hsame : r' = role := congrArg Member.role heq
        exact .inr ⟨hid, hsame ▸ hrole⟩
    · exact absurd hid (Table.mem_delete.mp hmem).2
  · have hold : (⟨u, r⟩ : Member) ∈ (db.changeMember c).members :=
      mem_changeMember_of_ne (role_eq_some.mp hr) hid
    exact .inl (congrArg Member.role (Table.eq_of_key_eq hmem hold rfl))

end changes

/-! ## Statements that change no membership -/

section quiet
variable {s s' : State} {t : Uuid} {old stage : Stage}

structure State.Quiet (s s' : State) : Prop where
  sound : s'.Sound
  members : s'.db.members = s.db.members

theorem State.Sound.put (h : s.Sound) (ht : s.stage t = some old) (hfits : s.db.Fits stage)
    (hlock : stage.change.isSome → old.change.isSome ∨ ¬ s.organizationLocked)
    (haccepts : ∀ i ∈ stage.invitation, old.invitation = some i ∨ ¬ s.invitationLocked i.id) :
    s.Quiet (s.put t stage) :=
  ⟨⟨h.db, h.transactions.put ht hfits hlock haccepts⟩, rfl⟩

/-- A stage that needs neither of the locks. -/
theorem State.Sound.put_free (h : s.Sound) (ht : s.stage t = some old) (hfits : s.db.Fits stage)
    (hchange : stage.change = none) (hinvitation : stage.invitation = none) :
    s.Quiet (s.put t stage) := by
  apply h.put ht hfits
  · intro hc
    rw [hchange] at hc
    cases hc
  · intro i hi
    rw [hinvitation] at hi
    cases hi

theorem State.Sound.start (h : s.Sound) (hs : s.start t stage = some s')
    (hfits : s.db.Fits stage) (hchange : stage.change = none)
    (hinvitation : stage.invitation = none) : s.Quiet s' := by
  have hdb : s'.db = s.db := by
    unfold State.start at hs
    split_ifs at hs
    cases hs
    rfl
  have hts := h.transactions.start hfits hchange hinvitation hs
  refine ⟨⟨?_, hts⟩, congrArg Database.members hdb⟩
  rw [hdb]
  exact h.db

theorem State.Sound.finish (h : s.Sound) (t : Uuid) : s.Quiet (s.finish t) :=
  ⟨⟨h.db, h.transactions.delete t⟩, rfl⟩

theorem State.Sound.fits (h : s.Sound) (ht : s.stage t = some stage) : s.db.Fits stage :=
  h.transactions.fits _ (stage_eq_some.mp ht)

theorem authorize_quiet (h : s.Sound) {caller : Uuid} {request : Request}
    (hs : authorize s t caller request = some s') : s.Quiet s' := by
  obtain ⟨callerRole, -, hs⟩ := Option.bind_eq_some_iff.mp hs
  split_ifs at hs
  exact h.start hs trivial rfl rfl

theorem createInvitation_quiet (h : s.Sound) (hs : createInvitation s t = some s') :
    s.Quiet s' := by
  unfold createInvitation at hs
  split at hs
  · next callerRole email role ht =>
    split_ifs at hs with hnone
    cases hs
    exact h.put_free ht hnone.2 rfl rfl
  · cases hs

theorem beginAcceptance_quiet (h : s.Sound) (hs : beginAcceptance s t = some s') : s.Quiet s' :=
  h.start hs trivial rfl rfl

theorem lockInvitation_quiet (h : s.Sound) {invitationId : Uuid}
    (hs : lockInvitation s t invitationId = some s') : s.Quiet s' := by
  unfold lockInvitation at hs
  split at hs
  · next startedAt ht =>
    split at hs
    · next i hi =>
      split_ifs at hs with hguard
      cases hs
      obtain ⟨hmem, hid⟩ := Table.find_eq_some.mp hi
      refine h.put ht ⟨hmem, hguard.1⟩ nofun ?_
      rintro j ⟨⟩
      exact .inr (hid ▸ hguard.2.2)
    · cases hs
  · cases hs

theorem identify_quiet (h : s.Sound) {newId : Uuid} (hs : identify s t newId = some s') :
    s.Quiet s' := by
  unfold identify at hs
  split at hs
  · next a ht =>
    split_ifs at hs
    have hholds : s.db.Holds a := h.fits ht
    have hlocks : ∀ i ∈ some a.invitation,
        Stage.invitation (.accepting a) = some i ∨ ¬ s.invitationLocked i.id := by
      rintro i ⟨⟩
      exact .inl rfl
    split at hs
    · next u hu =>
      cases hs
      obtain ⟨hmem, hemail⟩ := userWith_eq_some hu
      exact h.put ht ⟨hholds, fun _ => ⟨u, hmem, rfl, hemail⟩⟩ nofun hlocks
    · cases hs
      exact h.put ht ⟨hholds, nofun⟩ nofun hlocks
  · cases hs

theorem join_quiet (h : s.Sound) (hs : join s t = some s') : s.Quiet s' := by
  unfold join at hs
  split at hs
  · next a userId isNew ht =>
    split_ifs at hs
    cases hs
    have hfits : s.db.Fits (.identified a userId isNew) := h.fits ht
    refine h.put ht hfits nofun ?_
    rintro i ⟨⟩
    exact .inl rfl
  · cases hs

/-- The organization's lock is taken once, when it is free. -/
theorem lockOrganization_quiet (h : s.Sound) (hs : lockOrganization s t = some s') :
    s.Quiet s' := by
  unfold lockOrganization at hs
  split at hs
  · next caller callerRole request ht =>
    split at hs
    · next c hc =>
      split_ifs at hs with hfree
      cases hs
      exact h.put ht trivial (fun _ => .inr hfree) nofun
    · cases hs
  · cases hs

theorem readCaller_quiet (h : s.Sound) (hs : readCaller s t = some s') : s.Quiet s' := by
  unfold readCaller at hs
  split at hs
  · next c ht =>
    split at hs
    · next callerRole hrole =>
      split_ifs at hs with hmanages
      cases hs
      exact h.put ht ⟨hrole, hmanages⟩ (fun _ => .inl rfl) nofun
    · cases hs
  · cases hs

theorem readTarget_quiet (h : s.Sound) (hs : readTarget s t = some s') : s.Quiet s' := by
  unfold readTarget at hs
  split at hs
  · next c callerRole ht =>
    split at hs
    · next targetRole hrole =>
      split_ifs at hs with hpermitted
      cases hs
      have hcaller := h.fits ht
      exact h.put ht ⟨hcaller.1, hrole, hpermitted⟩ (fun _ => .inl rfl) nofun
    · cases hs
  · cases hs

theorem requireAnotherOwner_quiet (h : s.Sound) (hs : requireAnotherOwner s t = some s') :
    s.Quiet s' := by
  unfold requireAnotherOwner at hs
  split at hs
  · next c callerRole targetRole ht =>
    split_ifs at hs with hlast
    cases hs
    refine h.put ht ⟨h.fits ht, fun htarget hrole => ?_⟩ (fun _ => .inl rfl) nofun
    by_contra hnone
    exact hlast ⟨htarget, hrole, hnone⟩
  · cases hs

theorem writeChange_quiet (h : s.Sound) (hs : writeChange s t = some s') : s.Quiet s' := by
  unfold writeChange at hs
  split at hs
  · next c callerRole targetRole ht =>
    split_ifs at hs
    cases hs
    have hfits : s.db.Fits (.ready c callerRole targetRole) := h.fits ht
    exact h.put ht hfits (fun _ => .inl rfl) (by rintro _ ⟨⟩)
  · cases hs

/-! ### Changes of users and invitations -/

theorem signIn_quiet (h : s.Sound) {userId : Uuid} {email : String}
    (hs : signIn s userId email = some s') : s.Quiet s' := by
  unfold signIn at hs
  split_ifs at hs with hfree
  cases hs
  obtain ⟨hid, hemail, -⟩ : ¬ (s.db.users.find userId).isSome ∧ ¬ (s.db.userWith email).isSome ∧
      ¬ s.emailLocked email := by
    simpa only [not_or] using hfree
  have hnew : NewUser s.db.users (s.db.users.insert ⟨userId, email⟩) ⟨userId, email⟩ :=
    ⟨Option.not_isSome_iff_eq_none.mp hid,
      userWith_eq_none.mp (Option.not_isSome_iff_eq_none.mp hemail), rfl⟩
  refine ⟨⟨hnew.sound h.db, h.transactions.mono fun t _ hfits => ?_⟩, rfl⟩
  refine hfits.mono (fun email _ hmember => ?_) (fun _ _ hi => hi)
    (fun u hu => hnew.mem.mpr (.inr hu)) fun _ _ hm => hm
  exact hasMember_mono hmember (fun m hm => ⟨m, hm, rfl⟩) fun m hm =>
    hnew.find (h.db.valid.users m hm)

theorem insertInvitation_quiet (h : s.Sound) {invitationId : Uuid}
    (hs : insertInvitation s t invitationId = some s') : s.Quiet s' := by
  unfold insertInvitation at hs
  split at hs
  · next email role startedAt ht =>
    split_ifs at hs with hfree
    cases hs
    obtain ⟨hid, hactive⟩ := not_or.mp hfree
    have hnone := Option.not_isSome_iff_eq_none.mp hid
    have hput : s.Quiet (s.put t (.delivering invitationId)) := h.put_free ht trivial rfl rfl
    have hdb := insertInvitation_sound h.db
      (i := ⟨invitationId, email, role, startedAt + invitationSeconds, none, none⟩) hnone
      (h.fits ht) fun j hj hja hemail => hactive ⟨j, hj, hja, hemail⟩
    refine ⟨⟨hdb, hput.sound.transactions.mono fun x _ hfits => ?_⟩, rfl⟩
    exact hfits.mono (fun _ _ hmember => hmember)
      (fun i _ hi => (Table.mem_insert hnone).mpr (.inr hi)) (fun _ hu => hu) fun _ _ hm => hm
  · cases hs

/-- Revoking an invitation that no acceptance holds. -/
theorem revoked_quiet (h : s.Sound) {invitationId : Uuid} {f : Invitation → Invitation}
    {hf : ∀ i, (f i).id = i.id} (hrevoked : ∀ i, ¬ (f i).active)
    (hfree : ¬ s.invitationLocked invitationId) :
    s.Quiet { s.finish t with db := s.db.setInvitation invitationId f hf } := by
  have hdb : (s.db.setInvitation invitationId f hf).Sound := setInvitation_sound h.db hrevoked
  refine ⟨⟨hdb, (h.transactions.delete t).mono fun x hx hfits => ?_⟩, rfl⟩
  refine hfits.mono (fun _ _ hmember => hmember) (fun i hi hmem => ?_) (fun _ hu => hu)
    fun _ _ hm => hm
  refine (mem_setInvitation f hf).mpr (.inl ⟨hmem, fun hid => hfree ?_⟩)
  exact ⟨x, (Table.mem_delete.mp hx).1, i, hi, hid⟩

theorem deliver_quiet (h : s.Sound) {delivered : Bool} (hs : deliver s t delivered = some s') :
    s.Quiet s' := by
  unfold deliver at hs
  split at hs
  · next invitationId ht =>
    split_ifs at hs with hdelivered hlocked
    · cases hs
      exact h.finish t
    · cases hs
      exact revoked_quiet h (fun i hactive => by cases hactive.2) hlocked
  · cases hs

theorem revokeInvitation_quiet (h : s.Sound) (hs : revokeInvitation s t = some s') :
    s.Quiet s' := by
  unfold revokeInvitation at hs
  split at hs
  · split_ifs at hs with hlocked
    split at hs
    · split_ifs at hs
      cases hs
      exact revoked_quiet h (fun i hactive => by cases hactive.2) hlocked
    · cases hs
  · cases hs

end quiet

/-! ## Commits -/

section commits
variable {s s' : State} {t : Uuid}

/-- No invitation of the email is about to be inserted when an acceptance commits. -/
def Calm (s : State) : Action → Prop
  | .commitAcceptance t => ∀ i ∈ (s.stage t).bind Stage.invitation,
      ∀ x ∈ s.transactions.rows, x.stage.invited ≠ some i.email
  | _ => True

instance (s : State) : DecidablePred (Calm s)
  | .commitAcceptance t =>
    inferInstanceAs (Decidable (∀ i ∈ (s.stage t).bind Stage.invitation, ∀ x ∈ _, _))
  | .tick _ | .signIn .. | .authorize .. | .createInvitation _ | .insertInvitation .. | .deliver ..
  | .revokeInvitation _ | .beginAcceptance _ | .lockInvitation .. | .identify .. | .join _
  | .lockOrganization _ | .readCaller _ | .readTarget _ | .requireAnotherOwner _ | .writeChange _
  | .commitChange _ | .rollback _ => .isTrue trivial

theorem commitAcceptance_accepts (h : s.Sound) (hs : commitAcceptance s t = some s') :
    ∃ a userId isNew, s.stage t = some (.joined a userId isNew) ∧
      s.db.Accepts s'.db a.invitation userId ∧ s'.transactions = s.transactions.delete t := by
  unfold commitAcceptance at hs
  split at hs
  · next a userId isNew ht =>
    split_ifs at hs with hfree
    cases hs
    obtain ⟨⟨hmem, hactive⟩, hfound⟩ := h.fits ht
    refine ⟨a, userId, isNew, ht, accepts_acceptInvitation h.db hmem hactive hfound ?_ _, rfl⟩
    rintro rfl
    obtain ⟨hid, hemail⟩ := not_or.mp fun hor => hfree ⟨rfl, hor⟩
    exact ⟨Option.not_isSome_iff_eq_none.mp hid, Option.not_isSome_iff_eq_none.mp hemail⟩
  · cases hs

theorem commitAcceptance_sound (h : s.Sound) (hcalm : Calm s (.commitAcceptance t))
    (hs : commitAcceptance s t = some s') : s'.Sound := by
  obtain ⟨a, userId, isNew, ht, haccepts, hts⟩ := commitAcceptance_accepts h hs
  obtain ⟨⟨hmem, hactive⟩, -⟩ := h.fits ht
  refine ⟨haccepts.sound h.db hmem hactive, ?_⟩
  rw [hts]
  refine (h.transactions.delete t).mono fun x hx hfits => ?_
  obtain ⟨hx, hne⟩ := Table.mem_delete.mp hx
  refine hfits.mono (fun email hemail hmember => ?_) (fun i hi hold => ?_) haccepts.users
    fun _ m hm => (haccepts.members m).mpr (.inr hm)
  · refine (haccepts.hasMember h.db hmember).resolve_right fun heq => ?_
    have hinvitation : a.invitation ∈ (s.stage t).bind Stage.invitation := by
      rw [ht]
      rfl
    exact hcalm a.invitation hinvitation x hx (hemail.trans (congrArg some heq))
  · refine haccepts.kept i hold fun hid => hne ?_
    have hsame := h.transactions.accepts x hx _ (stage_eq_some.mp ht) i hi a.invitation rfl hid
    exact congrArg Transaction.id hsame

theorem commitChange_eq (hs : commitChange s t = some s') :
    ∃ c callerRole targetRole, s.stage t = some (.written c callerRole targetRole) ∧
      s' = { s.finish t with db := s.db.changeMember c } := by
  unfold commitChange at hs
  split at hs
  · next c callerRole targetRole ht =>
    cases hs
    exact ⟨c, callerRole, targetRole, ht, rfl⟩
  · cases hs

theorem commitChange_sound (h : s.Sound) (hs : commitChange s t = some s') : s'.Sound := by
  obtain ⟨c, callerRole, targetRole, ht, rfl⟩ := commitChange_eq hs
  obtain ⟨hreads, hbesides⟩ := h.fits ht
  refine ⟨changeMember_sound h.db hreads hbesides,
    (h.transactions.delete t).mono fun x hx hfits => ?_⟩
  obtain ⟨hx, hne⟩ := Table.mem_delete.mp hx
  refine hfits.mono (fun email _ hmember => ?_) (fun _ _ hi => hi) (fun _ hu => hu) ?_
  · exact hasMember_mono hmember (fun _ => mem_changeMember) fun _ _ => rfl
  · intro hchange
    have hsame := h.transactions.lock x hx _ (stage_eq_some.mp ht) hchange rfl
    exact absurd (congrArg Transaction.id hsame) hne

end commits

/-! ## Runs -/

section runs
variable {s s' : State}

/-- Every other statement changes no membership. -/
theorem quiet_or_commit (h : s.Sound) {a : Action} (hs : step s a = some s') :
    s.Quiet s' ∨ (∃ t, a = .commitAcceptance t) ∨ ∃ t, a = .commitChange t := by
  cases a with
  | tick seconds =>
    cases hs
    exact .inl ⟨⟨h.db, h.transactions⟩, rfl⟩
  | signIn userId email => exact .inl (signIn_quiet h hs)
  | authorize t caller request => exact .inl (authorize_quiet h hs)
  | createInvitation t => exact .inl (createInvitation_quiet h hs)
  | insertInvitation t invitationId => exact .inl (insertInvitation_quiet h hs)
  | deliver t delivered => exact .inl (deliver_quiet h hs)
  | revokeInvitation t => exact .inl (revokeInvitation_quiet h hs)
  | beginAcceptance t => exact .inl (beginAcceptance_quiet h hs)
  | lockInvitation t invitationId => exact .inl (lockInvitation_quiet h hs)
  | identify t newId => exact .inl (identify_quiet h hs)
  | join t => exact .inl (join_quiet h hs)
  | commitAcceptance t => exact .inr (.inl ⟨t, rfl⟩)
  | lockOrganization t => exact .inl (lockOrganization_quiet h hs)
  | readCaller t => exact .inl (readCaller_quiet h hs)
  | readTarget t => exact .inl (readTarget_quiet h hs)
  | requireAnotherOwner t => exact .inl (requireAnotherOwner_quiet h hs)
  | writeChange t => exact .inl (writeChange_quiet h hs)
  | commitChange t => exact .inr (.inr ⟨t, rfl⟩)
  | rollback t =>
    cases hs
    exact .inl (h.finish t)

theorem State.Sound.step (h : s.Sound) {a : Action} (hcalm : Calm s a)
    (hs : step s a = some s') : s'.Sound := by
  rcases quiet_or_commit h hs with hquiet | ⟨t, rfl⟩ | ⟨t, rfl⟩
  · exact hquiet.sound
  · exact commitAcceptance_sound h hcalm hs
  · exact commitChange_sound h hs

/-- An `update_member` that is allowed: the caller is now a member who may give this role to a
member with this one. -/
def State.Allows (s : State) (a : Action) (userId : Uuid) (targetRole role : Role) : Prop :=
  ∃ t caller callerRole, a = .commitChange t ∧
    s.stage t = some (.written ⟨caller, userId, some role⟩ callerRole targetRole) ∧
    s.db.role caller = some callerRole ∧ callerRole.managesMembers ∧
    (callerRole = .admin → ¬ targetRole.privileged ∧ ¬ role.privileged)

/-- A member's role changes only by an allowed update. -/
theorem allows_of_role_ne (h : s.Sound) {a : Action} (hs : step s a = some s') {userId : Uuid}
    {r r' : Role} (hr : s.db.role userId = some r) (hr' : s'.db.role userId = some r')
    (hne : r' ≠ r) : s.Allows a userId r r' := by
  rcases quiet_or_commit h hs with hquiet | ⟨t, rfl⟩ | ⟨t, rfl⟩
  · have hsame : s'.db.role userId = s.db.role userId := by
      unfold Database.role
      rw [hquiet.members]
    exact absurd (Option.some.inj (hr'.symm.trans (hsame.trans hr))) hne
  · obtain ⟨a, u, isNew, -, haccepts, -⟩ := commitAcceptance_accepts h hs
    exact absurd (haccepts.role hr hr') hne
  · obtain ⟨c, callerRole, targetRole, ht, rfl⟩ := commitChange_eq hs
    obtain ⟨hreads, -⟩ := h.fits ht
    obtain ⟨rfl, hrole⟩ := (role_changeMember hr hr').resolve_left hne
    obtain rfl := Option.some.inj (hr.symm.trans hreads.2.1)
    obtain ⟨caller, target, role⟩ := c
    cases hrole
    refine ⟨t, caller, callerRole, rfl, ht, hreads.1, hreads.2.2.1, fun hadmin => ?_⟩
    obtain ⟨htarget, hgiven⟩ := hreads.2.2.2 hadmin
    exact ⟨htarget, hgiven r' rfl⟩

theorem State.Initial.sound (h : s.Initial) : s.Sound := by
  refine ⟨⟨h.valid, h.owner, h.apart⟩, ?_⟩
  rw [h.transactions]
  exact ⟨nofun, nofun, nofun⟩

/-- In every run whose acceptances commit while no invitation of their email is about to be
inserted, the organization keeps an owner, and only an allowed update lowers a role. -/
theorem keeps_owner_of_reachable {init s : State} (hinit : init.Initial)
    (h : Reachable (restrict step Calm) (fun _ => True) init s) :
    s.db.hasOwner ∧ ∀ a s', restrict step Calm s a = some s' → ∀ userId r r',
      s.db.role userId = some r → s'.db.role userId = some r' → r'.rank < r.rank →
      s.Allows a userId r r' := by
  have hsound : s.Sound := by
    refine h.invariant State.Sound hinit.sound fun u a u' _ hu hs _ => ?_
    obtain ⟨hcalm, hstep⟩ := restrict_eq_some.mp hs
    exact hu.step hcalm hstep
  refine ⟨hsound.db.owner, fun a s' hs userId r r' hr hr' hlower => ?_⟩
  obtain ⟨-, hstep⟩ := restrict_eq_some.mp hs
  apply allows_of_role_ne hsound hstep hr hr'
  rintro rfl
  exact Nat.lt_irrefl _ hlower

/-! ### An invitation that did not see the acceptance -/

/-- One owner, and a user who has signed in. -/
def oneOwner : State where
  now := 0
  db := {
    users := ⟨[⟨1, "owner"⟩, ⟨2, "guest"⟩], by decide⟩
    members := ⟨[⟨1, .owner⟩], by decide⟩
    invitations := .empty }
  transactions := .empty

theorem oneOwner_initial : oneOwner.Initial := by
  refine ⟨rfl, ⟨by decide, ?_, nofun⟩, by decide, nofun⟩
  intro m hm
  obtain rfl := List.mem_singleton.mp hm
  rfl

def invited (t invitationId : Uuid) (role : Role) : List Action :=
  [.authorize t 1 (.createInvitation "guest" role), .createInvitation t,
    .insertInvitation t invitationId, .deliver t true]

def accepting (t invitationId : Uuid) : List Action :=
  [.beginAcceptance t, .lockInvitation t invitationId, .identify t 0, .join t]

def changed (t caller : Uuid) (request : Request) : List Action :=
  [.authorize t caller request, .lockOrganization t, .readCaller t, .readTarget t,
    .requireAnotherOwner t, .writeChange t, .commitChange t]

/-- The guest becomes an owner and makes the first owner a viewer. -/
def handedOver : List Action :=
  invited 11 21 .owner ++ accepting 12 21 ++ [.commitAcceptance 12] ++
    changed 13 2 (.updateMember 1 .viewer)

/-- A second invitation does not see the membership that an acceptance of the first has written,
and is inserted when that is committed. Then the guest removes the first owner, and accepts the
second invitation. -/
def demoted : List Action :=
  invited 11 21 .owner ++ accepting 12 21 ++
    [.authorize 14 1 (.createInvitation "guest" .viewer), .createInvitation 14,
      .commitAcceptance 12, .insertInvitation 14 22, .deliver 14 true] ++
    changed 13 2 (.removeMember 1) ++ accepting 15 22 ++ [.commitAcceptance 15]

theorem keeps_owner_handedOver :
    ∃ s, run (restrict step Calm) (fun _ => True) oneOwner handedOver = some s ∧
      s.db.hasOwner ∧ s.db.role 1 = some .viewer := by
  have hrun : (run (restrict step Calm) (fun _ => True) oneOwner handedOver).isSome := by
    decide +kernel
  obtain ⟨s, hs⟩ := Option.isSome_iff_exists.mp hrun
  have hreach := Reachable.of_run (.init trivial) hs
  have hrole : ∀ u ∈ run (restrict step Calm) (fun _ => True) oneOwner handedOver,
      u.db.role 1 = some .viewer := by
    decide +kernel
  exact ⟨s, hs, (keeps_owner_of_reachable oneOwner_initial hreach).1, hrole s hs⟩

theorem not_keeps_owner_demoted :
    ¬ ∀ init s, init.Initial → Reachable step (fun _ => True) init s → s.db.hasOwner := by
  intro hall
  have hrun : (run step (fun _ => True) oneOwner demoted).isSome := by decide +kernel
  obtain ⟨s, hs⟩ := Option.isSome_iff_exists.mp hrun
  have hnone : ∀ u ∈ run step (fun _ => True) oneOwner demoted, ¬ u.db.hasOwner := by
    decide +kernel
  exact hnone s hs (hall oneOwner s oneOwner_initial (Reachable.of_run (.init trivial) hs))

end runs
end FaultLane.Memberships
