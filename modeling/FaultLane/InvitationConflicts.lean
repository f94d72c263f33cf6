import FaultLane.MembershipTransactions

set_option autoImplicit false

/-!
# Invitations that stand in the way

The unique index on invitations counts those that are neither accepted nor revoked, the list shows
of these the ones that have not expired. An expired one blocks another for its email, unseen, until
it is revoked.
-/
namespace FaultLane.Memberships
open KeyedTable JobQueue TransitionSystem

/-! ## Lists and calls -/

/-- The invitations that `list_members` shows, in some order. -/
def Database.listInvitations (db : Database) (now : Nat) : List Invitation :=
  db.invitations.rows.filter fun i => i.active ∧ now < i.expiresAt

/-- An invitation on which the insertion of another for the email fails. -/
def Invitation.blocks (i : Invitation) (email : String) : Prop := i.active ∧ i.email = email

/-- An invitation that blocks others and is not shown. -/
def State.Stale (s : State) (i : Invitation) : Prop :=
  i ∈ s.db.invitations ∧ i.active ∧ i.expiresAt ≤ s.now

/-- `create_invitation` up to its insertion. -/
def creation (t caller invitationId : Uuid) (email : String) (role : Role) : List Action :=
  [.authorize t caller (.createInvitation email role), .createInvitation t,
    .insertInvitation t invitationId]

def revocation (t caller invitationId : Uuid) : List Action :=
  [.authorize t caller (.revokeInvitation invitationId), .revokeInvitation t]

/-- The caller may invite to the role, for an address that is no member and that the list does not
show. -/
structure State.MayInvite (s : State) (t caller invitationId : Uuid) (email : String)
    (role : Role) : Prop where
  fresh : s.transactions.find t = none ∧ s.db.invitations.find invitationId = none
  permitted : ∃ callerRole, s.db.role caller = some callerRole ∧ callerRole.managesMembers ∧
    (callerRole = .admin → ¬ role.privileged)
  outside : ¬ s.db.hasMember email
  unlisted : ∀ i ∈ s.db.listInvitations s.now, i.email ≠ email

def State.Invites (s : State) (t caller invitationId : Uuid) (email : String) (role : Role) :
    Prop :=
  ∃ s', run step (fun _ => True) s (creation t caller invitationId email role) = some s' ∧
    ∃ i ∈ s'.db.invitations, i.id = invitationId ∧ i.blocks email

/-- Whoever manages members can revoke the invitation, when no acceptance holds it. -/
def State.Revocable (s : State) (invitationId : Uuid) : Prop :=
  ∀ t caller callerRole, s.transactions.find t = none → s.db.role caller = some callerRole →
    callerRole.managesMembers → ¬ s.invitationLocked invitationId →
    (run step (fun _ => True) s (revocation t caller invitationId)).isSome

/-- Only invitations that are shown and can be revoked stand in the way of others. -/
structure State.Unblocked (s : State) : Prop where
  invites : ∀ t caller invitationId email role, s.MayInvite t caller invitationId email role →
    s.Invites t caller invitationId email role
  shown : ∀ email, ∀ i ∈ s.db.invitations, i.blocks email →
    i ∈ s.db.listInvitations s.now ∧ s.Revocable i.id

section calls
variable {s : State} {t caller invitationId : Uuid} {email : String} {role : Role}

theorem mem_listInvitations {now : Nat} {i : Invitation} : i ∈ s.db.listInvitations now ↔
    i ∈ s.db.invitations ∧ i.active ∧ now < i.expiresAt := by
  unfold Database.listInvitations
  rw [List.mem_filter, decide_eq_true_eq]
  rfl

theorem creation_eq (h : s.MayInvite t caller invitationId email role) :
    run step (fun _ => True) s (creation t caller invitationId email role) =
      if ∃ i ∈ s.db.invitations.rows, i.active ∧ i.email = email then none
      else some { adding s t (.delivering invitationId) with
        db := { s.db with
          invitations := s.db.invitations.insert
            ⟨invitationId, email, role, s.now + invitationSeconds, none, none⟩ } } := by
  obtain ⟨⟨hfree, hid⟩, ⟨callerRole, hcaller, hmanages, hrole⟩, hmember, -⟩ := h
  have hauthorize : step s (.authorize t caller (.createInvitation email role)) = some _ :=
    authorize_adding hfree hcaller hmanages
  have hcreate : step (adding s t (.authorized caller callerRole (.createInvitation email role)))
      (.createInvitation t) = some _ := createInvitation_adding hfree hrole hmember
  have hinsert : step (adding s t (.inviting email role s.now)) (.insertInvitation t invitationId) =
      if _ then none else some _ := insertInvitation_adding hfree hid
  unfold creation
  rw [run_cons hauthorize trivial, run_cons hcreate trivial]
  by_cases hblocked : ∃ i ∈ s.db.invitations.rows, i.active ∧ i.email = email
  · rw [if_pos hblocked] at hinsert ⊢
    rw [run, hinsert]
    rfl
  · rw [if_neg hblocked] at hinsert ⊢
    rw [run_cons hinsert trivial]
    rfl

/-- For a call that should succeed, what stands in the way has expired. -/
theorem invites_iff (h : s.MayInvite t caller invitationId email role) :
    s.Invites t caller invitationId email role ↔ ¬ ∃ i, s.Stale i ∧ i.email = email := by
  have hstale : (∃ i ∈ s.db.invitations.rows, i.active ∧ i.email = email) ↔
      ∃ i, s.Stale i ∧ i.email = email := by
    constructor
    · rintro ⟨i, hi, hactive, hemail⟩
      have hexpired : ¬ s.now < i.expiresAt := fun hlt =>
        h.unlisted i (mem_listInvitations.mpr ⟨hi, hactive, hlt⟩) hemail
      exact ⟨i, ⟨hi, hactive, Nat.le_of_not_lt hexpired⟩, hemail⟩
    · rintro ⟨i, ⟨hi, hactive, -⟩, hemail⟩
      exact ⟨i, hi, hactive, hemail⟩
  unfold State.Invites
  rw [creation_eq h, ← hstale]
  split_ifs with hblocked
  · refine iff_of_false ?_ fun hnot => hnot hblocked
    rintro ⟨s', hs', -⟩
    cases hs'
  · refine iff_of_true ⟨_, rfl, ?_⟩ hblocked
    exact ⟨_, (Table.mem_insert h.fresh.2).mpr (.inl rfl), rfl, ⟨rfl, rfl⟩, rfl⟩

theorem revocable_of_active {i : Invitation} (hi : i ∈ s.db.invitations) (hactive : i.active) :
    s.Revocable i.id := by
  intro t caller callerRole hfree hcaller hmanages hlock
  have hauthorize : step s (.authorize t caller (.revokeInvitation i.id)) = some _ :=
    authorize_adding hfree hcaller hmanages
  obtain ⟨s', hs'⟩ := Option.isSome_iff_exists.mp (revokeInvitation_adding hfree hi hactive hlock)
  have hrevoke : step (adding s t (.authorized caller callerRole (.revokeInvitation i.id)))
      (.revokeInvitation t) = some s' := hs'
  unfold revocation
  rw [run_cons hauthorize trivial, run_cons hrevoke trivial]
  rfl

theorem unblocked_iff : s.Unblocked ↔ ¬ ∃ i, s.Stale i := by
  constructor
  · rintro h ⟨i, hi, hactive, hexpired⟩
    have hlisted := (mem_listInvitations.mp (h.shown i.email i hi ⟨hactive, rfl⟩).1).2.2
    exact absurd hlisted (Nat.not_lt.mpr hexpired)
  · intro hnone
    refine ⟨fun t caller invitationId email role h => (invites_iff h).mpr ?_, ?_⟩
    · rintro ⟨i, hstale, -⟩
      exact hnone ⟨i, hstale⟩
    · intro email i hi hblocks
      have hlt : s.now < i.expiresAt :=
        Nat.lt_of_not_le fun hexpired => hnone ⟨i, hi, hblocks.1, hexpired⟩
      exact ⟨mem_listInvitations.mpr ⟨hi, hblocks.1, hlt⟩, revocable_of_active hi hblocks.1⟩

end calls

/-! ## Runs in which no open invitation expires -/

/-- When the statement of an insertion began. -/
def Stage.invitingSince : Stage → Option Nat
  | .inviting _ _ startedAt => some startedAt
  | _ => none

/-- Time passes only while open invitations last, and an insertion does not wait for longer than
its invitation lasts. -/
def Timely (s : State) : Action → Prop
  | .tick seconds => ∀ i ∈ s.db.invitations.rows, i.active → s.now + seconds < i.expiresAt
  | .insertInvitation t _ => ∀ startedAt ∈ (s.stage t).bind Stage.invitingSince,
      s.now < startedAt + invitationSeconds
  | _ => True

instance (s : State) : DecidablePred (Timely s)
  | .tick _ => inferInstanceAs (Decidable (∀ i ∈ _, _))
  | .insertInvitation t _ =>
    inferInstanceAs (Decidable (∀ startedAt ∈ (s.stage t).bind Stage.invitingSince, _))
  | .signIn .. | .authorize .. | .createInvitation _ | .deliver .. | .revokeInvitation _
  | .beginAcceptance _ | .lockInvitation .. | .identify .. | .join _ | .commitAcceptance _
  | .lockOrganization _ | .readCaller _ | .readTarget _ | .requireAnotherOwner _ | .writeChange _
  | .commitChange _ | .rollback _ => .isTrue trivial

def State.Lasting (s : State) : Prop :=
  ∀ i ∈ s.db.invitations, i.active → s.now < i.expiresAt

section runs
variable {s s' : State} {t : Uuid}

/-- Other statements leave the clock alone, and make no invitation active. -/
structure State.Closes (s s' : State) : Prop where
  now : s'.now = s.now
  active : ∀ i ∈ s'.db.invitations, i.active → i ∈ s.db.invitations

theorem State.Closes.lasting (h : s.Closes s') (hlasting : s.Lasting) : s'.Lasting := by
  intro i hi hactive
  rw [h.now]
  exact hlasting i (h.active i hi hactive) hactive

theorem start_closes {stage : Stage} (hs : s.start t stage = some s') : s.Closes s' := by
  unfold State.start at hs
  split_ifs at hs
  cases hs
  exact ⟨rfl, fun _ hi _ => hi⟩

theorem setInvitation_closes {db : Database} {invitationId : Uuid} {f : Invitation → Invitation}
    {hf : ∀ i, (f i).id = i.id} (hclosed : ∀ i, ¬ (f i).active) :
    ∀ i ∈ (db.setInvitation invitationId f hf).invitations, i.active → i ∈ db.invitations := by
  intro i hi hactive
  rcases (mem_setInvitation f hf).mp hi with ⟨hi, -⟩ | ⟨j, -, rfl⟩
  · exact hi
  · exact absurd hactive (hclosed j)

theorem deliver_closes {delivered : Bool} (hs : deliver s t delivered = some s') :
    s.Closes s' := by
  unfold deliver at hs
  split at hs
  · split_ifs at hs
    · cases hs
      exact ⟨rfl, fun _ hi _ => hi⟩
    · cases hs
      exact ⟨rfl, setInvitation_closes fun i hactive => by cases hactive.2⟩
  · cases hs

theorem revokeInvitation_closes (hs : revokeInvitation s t = some s') : s.Closes s' := by
  unfold revokeInvitation at hs
  split at hs
  · split_ifs at hs
    split at hs
    · split_ifs at hs
      cases hs
      exact ⟨rfl, setInvitation_closes fun i hactive => by cases hactive.2⟩
    · cases hs
  · cases hs

theorem commitAcceptance_closes (hs : commitAcceptance s t = some s') : s.Closes s' := by
  unfold commitAcceptance at hs
  split at hs
  · next a userId isNew ht =>
    split_ifs at hs
    cases hs
    have hclosed : ∀ i : Invitation,
        ¬ ({ i with acceptedAt := some a.startedAt } : Invitation).active :=
      fun i hactive => by cases hactive.1
    exact ⟨rfl, @setInvitation_closes s.db a.invitation.id
      (fun i => { i with acceptedAt := some a.startedAt }) (fun _ => rfl) hclosed⟩
  · cases hs

theorem State.Lasting.step {a : Action} (h : s.Lasting) (htimely : Timely s a)
    (hs : step s a = some s') : s'.Lasting := by
  cases a with
  | tick seconds =>
    cases hs
    exact fun i hi hactive => htimely i hi hactive
  | insertInvitation t invitationId =>
    change insertInvitation s t invitationId = some s' at hs
    unfold insertInvitation at hs
    split at hs
    · next email role startedAt ht =>
      split_ifs at hs with hused
      cases hs
      have hfree := Option.not_isSome_iff_eq_none.mp (not_or.mp hused).1
      intro i hi hactive
      rcases (Table.mem_insert hfree).mp hi with rfl | hi
      · exact htimely startedAt (by rw [ht]; rfl)
      · exact h i hi hactive
    · cases hs
  | deliver t delivered => exact (deliver_closes hs).lasting h
  | revokeInvitation t => exact (revokeInvitation_closes hs).lasting h
  | commitAcceptance t => exact (commitAcceptance_closes hs).lasting h
  | authorize t caller request =>
    obtain ⟨callerRole, -, hs⟩ := Option.bind_eq_some_iff.mp hs
    split_ifs at hs
    exact (start_closes hs).lasting h
  | beginAcceptance t => exact (start_closes hs).lasting h
  | signIn userId email =>
    change signIn s userId email = some s' at hs
    unfold signIn at hs
    split_ifs at hs
    cases hs
    exact h
  | createInvitation t =>
    change createInvitation s t = some s' at hs
    unfold createInvitation at hs
    split at hs
    · split_ifs at hs
      cases hs
      exact h
    · cases hs
  | lockInvitation t invitationId =>
    change lockInvitation s t invitationId = some s' at hs
    unfold lockInvitation at hs
    split at hs
    · split at hs
      · split_ifs at hs
        cases hs
        exact h
      · cases hs
    · cases hs
  | identify t newId =>
    change identify s t newId = some s' at hs
    unfold identify at hs
    split at hs
    · split_ifs at hs
      split at hs <;> cases hs <;> exact h
    · cases hs
  | join t =>
    change join s t = some s' at hs
    unfold join at hs
    split at hs
    · split_ifs at hs
      cases hs
      exact h
    · cases hs
  | lockOrganization t =>
    change lockOrganization s t = some s' at hs
    unfold lockOrganization at hs
    split at hs
    · split at hs
      · split_ifs at hs
        cases hs
        exact h
      · cases hs
    · cases hs
  | readCaller t =>
    change readCaller s t = some s' at hs
    unfold readCaller at hs
    split at hs
    · split at hs
      · split_ifs at hs
        cases hs
        exact h
      · cases hs
    · cases hs
  | readTarget t =>
    change readTarget s t = some s' at hs
    unfold readTarget at hs
    split at hs
    · split at hs
      · split_ifs at hs
        cases hs
        exact h
      · cases hs
    · cases hs
  | requireAnotherOwner t =>
    change requireAnotherOwner s t = some s' at hs
    unfold requireAnotherOwner at hs
    split at hs
    · split_ifs at hs
      cases hs
      exact h
    · cases hs
  | writeChange t =>
    change writeChange s t = some s' at hs
    unfold writeChange at hs
    split at hs
    · split_ifs at hs
      cases hs
      exact h
    · cases hs
  | commitChange t =>
    obtain ⟨c, callerRole, targetRole, -, rfl⟩ := commitChange_eq hs
    exact h
  | rollback t =>
    cases hs
    exact h

theorem lasting_of_reachable {init : State} (hinit : init.Lasting)
    (h : Reachable (restrict step Timely) (fun _ => True) init s) : s.Lasting := by
  refine h.invariant State.Lasting hinit fun u a u' _ hu hs _ => ?_
  obtain ⟨htimely, hstep⟩ := restrict_eq_some.mp hs
  exact hu.step htimely hstep

theorem State.Lasting.not_stale (h : s.Lasting) : ¬ ∃ i, s.Stale i := by
  rintro ⟨i, hi, hactive, hexpired⟩
  exact absurd (h i hi hactive) (Nat.not_lt.mpr hexpired)

/-- An address without a member and without an invitation in the list can be invited just when no
open invitation for it has expired. Only shown invitations block others in the states without an
expired one, which are all those of runs in which none expires. -/
theorem unblocked_iff_not_stale (s : State) :
    (∀ t caller invitationId email role, s.MayInvite t caller invitationId email role →
      (s.Invites t caller invitationId email role ↔ ¬ ∃ i, s.Stale i ∧ i.email = email)) ∧
    (s.Unblocked ↔ ¬ ∃ i, s.Stale i) ∧
    ∀ init, State.Initial init → init.Lasting →
      Reachable (restrict step Timely) (fun _ => True) init s → s.Unblocked := by
  refine ⟨fun t caller invitationId email role h => invites_iff h, unblocked_iff, ?_⟩
  intro init _ hinit hreach
  exact unblocked_iff.mpr (lasting_of_reachable hinit hreach).not_stale

/-! ### An invitation that nobody accepts -/

/-- The owner invites an address, which lets a week pass. -/
def forgotten (seconds : Nat) : List Action :=
  [.authorize 11 1 (.createInvitation "late@example.com" .viewer), .createInvitation 11,
    .insertInvitation 11 21, .deliver 11 true, .tick seconds]

theorem unblocked_forgotten : ∃ s, run (restrict step Timely) (fun _ => True) oneOwner
    (forgotten 3600) = some s ∧ s.Unblocked := by
  have hrun : (run (restrict step Timely) (fun _ => True) oneOwner (forgotten 3600)).isSome := by
    decide +kernel
  obtain ⟨s, hs⟩ := Option.isSome_iff_exists.mp hrun
  have hreach := Reachable.of_run (.init trivial) hs
  exact ⟨s, hs, (unblocked_iff_not_stale s).2.2 oneOwner oneOwner_initial nofun hreach⟩

/-- The same address cannot be invited again, and nothing shows why. -/
theorem not_unblocked_forgotten :
    (¬ ∀ init s, State.Initial init → Reachable step (fun _ => True) init s → s.Unblocked) ∧
    ∃ s, run step (fun _ => True) oneOwner (forgotten invitationSeconds) = some s ∧
      s.db.listInvitations s.now = [] ∧ s.MayInvite 12 1 22 "late@example.com" .viewer ∧
      ¬ s.Invites 12 1 22 "late@example.com" .viewer := by
  have hrun : (run step (fun _ => True) oneOwner (forgotten invitationSeconds)).isSome := by
    decide +kernel
  obtain ⟨s, hs⟩ := Option.isSome_iff_exists.mp hrun
  have hstate : ∀ u ∈ run step (fun _ => True) oneOwner (forgotten invitationSeconds),
      u.db.listInvitations u.now = [] ∧
      (u.transactions.find 12 = none ∧ u.db.invitations.find 22 = none) ∧
      u.db.role 1 = some .owner ∧ ¬ u.db.hasMember "late@example.com" ∧
      ∃ i ∈ u.db.invitations.rows, i.active ∧ i.expiresAt ≤ u.now ∧
        i.email = "late@example.com" := by
    decide +kernel
  obtain ⟨hlist, hfresh, howner, hmember, i, hi, hactive, hexpired, hemail⟩ := hstate s hs
  have hmay : s.MayInvite 12 1 22 "late@example.com" .viewer := by
    refine ⟨hfresh, ⟨.owner, howner, rfl, nofun⟩, hmember, ?_⟩
    rw [hlist]
    exact nofun
  have hblocked : ¬ s.Invites 12 1 22 "late@example.com" .viewer := by
    rw [invites_iff hmay]
    exact fun hnone => hnone ⟨i, ⟨hi, hactive, hexpired⟩, hemail⟩
  refine ⟨fun hall => hblocked ?_, s, hs, hlist, hmay, hblocked⟩
  have hunblocked := hall oneOwner s oneOwner_initial (Reachable.of_run (.init trivial) hs)
  exact hunblocked.invites 12 1 22 "late@example.com" .viewer hmay

end runs
end FaultLane.Memberships
