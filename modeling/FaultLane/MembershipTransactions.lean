import FaultLane.MembershipsRuns

set_option autoImplicit false

/-!
# Transactions that run alone

A transaction that nothing has to wait for, statement by statement: its row comes and goes, and
the tables change with its last statement.
-/
namespace FaultLane.Memberships
open KeyedTable JobQueue

section transaction
variable {o : State} {t : Uuid} {stage stage' : Stage}

/-- The state with one more transaction. -/
def adding (o : State) (t : Uuid) (stage : Stage) : State :=
  { o with transactions := o.transactions.insert ⟨t, stage⟩ }

theorem mem_adding (hfree : o.transactions.find t = none) {x : Transaction} :
    x ∈ (adding o t stage).transactions ↔ x = ⟨t, stage⟩ ∨ x ∈ o.transactions :=
  @Table.mem_insert _ _ _ _ o.transactions ⟨t, stage⟩ x hfree

theorem stage_adding (hfree : o.transactions.find t = none) :
    (adding o t stage).stage t = some stage :=
  stage_eq_some.mpr ((mem_adding hfree).mpr (.inl rfl))

theorem put_adding (hfree : o.transactions.find t = none) :
    (adding o t stage).put t stage' = adding o t stage' := by
  have htable : (o.transactions.insert ⟨t, stage⟩).modify t (fun x => { x with stage := stage' })
      (fun _ => rfl) = o.transactions.insert ⟨t, stage'⟩ :=
    @Table.modify_insert _ _ _ _ o.transactions ⟨t, stage⟩ (fun x => { x with stage := stage' })
      (fun _ => rfl) hfree
  unfold adding State.put
  dsimp only
  rw [htable]

theorem finish_adding (hfree : o.transactions.find t = none) :
    (adding o t stage).finish t = o := by
  have htable : (o.transactions.insert ⟨t, stage⟩).delete t = o.transactions :=
    @Table.delete_insert_self _ _ _ _ o.transactions ⟨t, stage⟩ hfree
  unfold adding State.finish
  dsimp only
  rw [htable]

theorem organizationLocked_adding (hfree : o.transactions.find t = none) :
    (adding o t stage).organizationLocked ↔ stage.change.isSome ∨ o.organizationLocked := by
  unfold State.organizationLocked
  constructor
  · rintro ⟨x, hx, hlock⟩
    rcases (mem_adding hfree).mp hx with rfl | hx
    · exact .inl hlock
    · exact .inr ⟨x, hx, hlock⟩
  · rintro (hlock | ⟨x, hx, hlock⟩)
    · exact ⟨_, (mem_adding hfree).mpr (.inl rfl), hlock⟩
    · exact ⟨x, (mem_adding hfree).mpr (.inr hx), hlock⟩

theorem memberLocked_adding (hfree : o.transactions.find t = none) {userId : Uuid} :
    (adding o t stage).memberLocked userId ↔
      stage.member = some userId ∨ o.memberLocked userId := by
  unfold State.memberLocked
  constructor
  · rintro ⟨x, hx, hlock⟩
    rcases (mem_adding hfree).mp hx with rfl | hx
    · exact .inl hlock
    · exact .inr ⟨x, hx, hlock⟩
  · rintro (hlock | ⟨x, hx, hlock⟩)
    · exact ⟨_, (mem_adding hfree).mpr (.inl rfl), hlock⟩
    · exact ⟨x, (mem_adding hfree).mpr (.inr hx), hlock⟩

end transaction

/-! ## Statements -/

section statements
variable {o : State} {t caller target : Uuid} {callerRole targetRole : Role}

theorem authorize_adding (hfree : o.transactions.find t = none) {request : Request}
    (hcaller : o.db.role caller = some callerRole) (hmanages : callerRole.managesMembers) :
    authorize o t caller request =
      some (adding o t (.authorized caller callerRole request)) := by
  unfold authorize State.start
  rw [hcaller, hfree]
  exact if_pos hmanages

theorem lockOrganization_adding (hfree : o.transactions.find t = none)
    (hlock : ¬ o.organizationLocked) :
    lockOrganization (adding o t (.authorized caller callerRole (.removeMember target)))
      t = some (adding o t (.locked ⟨caller, target, none⟩)) := by
  have hlocked : ¬ (adding o t (.authorized caller callerRole
      (.removeMember target))).organizationLocked := by
    rw [organizationLocked_adding hfree]
    rintro (h | h)
    · cases h
    · exact hlock h
  unfold lockOrganization
  rw [stage_adding hfree]
  change (if _ then none else some _) = _
  rw [if_neg hlocked, put_adding hfree]

theorem readCaller_adding (hfree : o.transactions.find t = none) {c : Change}
    (hcaller : o.db.role c.caller = some callerRole) (hmanages : callerRole.managesMembers) :
    readCaller (adding o t (.locked c)) t =
      some (adding o t (.callerRead c callerRole)) := by
  have hrole : (adding o t (.locked c)).db.role c.caller = some callerRole := hcaller
  unfold readCaller
  rw [stage_adding hfree]
  dsimp only
  rw [hrole]
  dsimp only
  rw [if_pos hmanages, put_adding hfree]

theorem readTarget_adding (hfree : o.transactions.find t = none) {c : Change}
    (htarget : o.db.role c.target = some targetRole)
    (hpermitted : c.permitted callerRole targetRole) :
    readTarget (adding o t (.callerRead c callerRole)) t =
      some (adding o t (.targetRead c callerRole targetRole)) := by
  have hrole : (adding o t (.callerRead c callerRole)).db.role c.target = some targetRole := htarget
  unfold readTarget
  rw [stage_adding hfree]
  dsimp only
  rw [hrole]
  dsimp only
  rw [if_pos hpermitted, put_adding hfree]

theorem requireAnotherOwner_adding (hfree : o.transactions.find t = none) {c : Change}
    (howner : targetRole = .owner →
      ∃ m ∈ o.db.members.rows, m.userId ≠ c.target ∧ m.role = .owner) :
    requireAnotherOwner (adding o t (.targetRead c callerRole targetRole)) t =
      some (adding o t (.ready c callerRole targetRole)) := by
  unfold requireAnotherOwner
  rw [stage_adding hfree]
  dsimp only
  rw [if_neg, put_adding hfree]
  rintro ⟨htarget, -, hnone⟩
  exact hnone (howner htarget)

theorem writeChange_adding (hfree : o.transactions.find t = none) {c : Change}
    (htarget : o.db.role c.target = some targetRole) (hlock : ¬ o.memberLocked c.target) :
    writeChange (adding o t (.ready c callerRole targetRole)) t =
      some (adding o t (.written c callerRole targetRole)) := by
  have hfound : (o.db.members.find c.target).isSome := by
    rw [← Option.isSome_map (f := Member.role)]
    exact Option.isSome_of_mem htarget
  have hlocked : ¬ (adding o t (.ready c callerRole targetRole)).memberLocked c.target := by
    rw [memberLocked_adding hfree]
    rintro (h | h)
    · cases h
    · exact hlock h
  unfold writeChange
  rw [stage_adding hfree]
  dsimp only
  rw [if_neg, put_adding hfree]
  rintro (h | h)
  · exact hlocked h
  · change (o.db.members.find c.target).isNone = true at h
    rw [Option.isNone_iff_eq_none] at h
    rw [h] at hfound
    cases hfound

theorem commitChange_adding (hfree : o.transactions.find t = none) {c : Change} :
    commitChange (adding o t (.written c callerRole targetRole)) t =
      some { o with db := o.db.changeMember c } := by
  unfold commitChange
  rw [stage_adding hfree]
  dsimp only
  rw [finish_adding hfree]
  rfl

/-- The insertion of an invitation fails on an active one of its email. -/
theorem insertInvitation_adding (hfree : o.transactions.find t = none) {email : String}
    {role : Role} {startedAt invitationId : Nat} (hid : o.db.invitations.find invitationId = none) :
    insertInvitation (adding o t (.inviting email role startedAt)) t invitationId =
      if ∃ i ∈ o.db.invitations.rows, i.active ∧ i.email = email then none
      else some { adding o t (.delivering invitationId) with
        db := { o.db with
          invitations := o.db.invitations.insert
            ⟨invitationId, email, role, startedAt + invitationSeconds, none, none⟩ } } := by
  unfold insertInvitation
  rw [stage_adding hfree]
  dsimp only
  rw [put_adding hfree]
  by_cases hactive : ∃ i ∈ o.db.invitations.rows, i.active ∧ i.email = email
  · rw [if_pos hactive, if_pos (.inr hactive)]
  · rw [if_neg hactive, if_neg]
    · rfl
    · rintro (hsome | hsome)
      · change (o.db.invitations.find invitationId).isSome = true at hsome
        rw [hid] at hsome
        cases hsome
      · exact hactive hsome

theorem createInvitation_adding (hfree : o.transactions.find t = none) {email : String}
    {role : Role} (hrole : callerRole = .admin → ¬ role.privileged)
    (hmember : ¬ o.db.hasMember email) :
    createInvitation (adding o t (.authorized caller callerRole (.createInvitation email role))) t =
      some (adding o t (.inviting email role o.now)) := by
  unfold createInvitation
  rw [stage_adding hfree]
  dsimp only
  rw [put_adding hfree]
  exact if_pos ⟨hrole, hmember⟩

theorem revokeInvitation_adding (hfree : o.transactions.find t = none) {i : Invitation}
    (hi : i ∈ o.db.invitations) (hactive : i.active) (hlock : ¬ o.invitationLocked i.id) :
    (revokeInvitation (adding o t (.authorized caller callerRole (.revokeInvitation i.id)))
      t).isSome := by
  have hfind : (adding o t (.authorized caller callerRole
      (.revokeInvitation i.id))).db.invitations.find i.id = some i :=
    Table.find_eq_some.mpr ⟨hi, rfl⟩
  have hlocked : ¬ (adding o t (.authorized caller callerRole
      (.revokeInvitation i.id))).invitationLocked i.id := by
    rintro ⟨x, hx, j, hj, hid⟩
    rcases (mem_adding hfree).mp hx with rfl | hx
    · cases hj
    · exact hlock ⟨x, hx, j, hj, hid⟩
  unfold revokeInvitation
  rw [stage_adding hfree]
  dsimp only
  rw [if_neg hlocked]
  rw [hfind]
  dsimp only
  rw [if_pos hactive.1]
  rfl

end statements

end FaultLane.Memberships
