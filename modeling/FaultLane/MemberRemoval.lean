import FaultLane.MemberActivity
import FaultLane.MembershipTransactions

set_option autoImplicit false

/-!
# When a member can be removed

A removal that nothing else stands against succeeds just when no row refers to the member. Since
the rows stay, this is when the member has never created an upload token or asked for crashes to be
processed again.
-/
namespace FaultLane.MemberActivity
open KeyedTable JobQueue TransitionSystem
open Memberships (Role Change Request Stage)

/-! ## The calls that have to succeed -/

/-- The caller may remove the target, who is not the only owner, and nothing has to wait. -/
structure State.MayRemove (s : State) (t caller target : Uuid) : Prop where
  fresh : s.organization.transactions.find t = none
  free : ¬ s.organization.organizationLocked ∧ ¬ s.organization.memberLocked target
  permitted : ∃ callerRole targetRole, s.organization.db.role caller = some callerRole ∧
    s.organization.db.role target = some targetRole ∧
    Change.permitted ⟨caller, target, none⟩ callerRole targetRole ∧
    (targetRole = .owner → ∃ m ∈ s.organization.db.members.rows, m.userId ≠ target ∧
      m.role = .owner)

section removal
variable {s : State} {t caller target : Uuid}

/-- The statements of a removal one after another. -/
theorem removal_eq (t caller target : Uuid) : removal t caller target =
    [.membership (.authorize t caller (.removeMember target)),
      .membership (.lockOrganization t), .membership (.readCaller t), .membership (.readTarget t),
      .membership (.requireAnotherOwner t), .membership (.writeChange t),
      .membership (.commitChange t)] := rfl

/-- The state without the member. -/
def State.without (s : State) (caller target : Uuid) : State :=
  { s with organization :=
    { s.organization with db := s.organization.db.changeMember ⟨caller, target, none⟩ } }

def State.adding (s : State) (t : Uuid) (stage : Stage) : State :=
  { s with organization := Memberships.adding s.organization t stage }

theorem membershipStep_of_not_delete {a : Memberships.Action} {o : Memberships.State}
    (h : s.deletes a = none) (ho : Memberships.step s.organization a = some o) :
    step s (.membership a) = some { s with organization := o } := by
  change membershipStep s a = _
  unfold membershipStep
  rw [if_neg, ho]
  · rfl
  · rintro ⟨userId, hmem, -⟩
    rw [h] at hmem
    cases hmem

theorem deletes_adding (hfree : s.organization.transactions.find t = none) {c : Change}
    (callerRole targetRole : Role) (hrole : c.role = none) :
    (s.adding t (.ready c callerRole targetRole)).deletes (.writeChange t) = some c.target := by
  have hstage : (s.adding t (.ready c callerRole targetRole)).organization.stage t =
      some (.ready c callerRole targetRole) := Memberships.stage_adding hfree
  unfold State.deletes
  dsimp only
  rw [hstage]
  exact if_pos hrole

/-- All statements of a removal succeed but for the `DELETE`. -/
theorem removeMember_eq (h : s.MayRemove t caller target) : removeMember s t caller target =
    if s.refers target then none else some (s.without caller target) := by
  obtain ⟨hfree, ⟨hlock, hmember⟩, hpermitted⟩ := h
  obtain ⟨callerRole, targetRole, hcaller, htarget, hpermitted, howner⟩ := hpermitted
  let c : Change := ⟨caller, target, none⟩
  have hauthorize : step s (.membership (.authorize t caller (.removeMember target))) =
      some (s.adding t (.authorized caller callerRole (.removeMember target))) :=
    membershipStep_of_not_delete rfl (Memberships.authorize_adding hfree hcaller hpermitted.1)
  have hlocked : step (s.adding t (.authorized caller callerRole (.removeMember target)))
      (.membership (.lockOrganization t)) = some (s.adding t (.locked c)) :=
    membershipStep_of_not_delete rfl (Memberships.lockOrganization_adding hfree hlock)
  have hread : step (s.adding t (.locked c)) (.membership (.readCaller t)) =
      some (s.adding t (.callerRead c callerRole)) :=
    membershipStep_of_not_delete rfl (Memberships.readCaller_adding hfree hcaller hpermitted.1)
  have hread' : step (s.adding t (.callerRead c callerRole)) (.membership (.readTarget t)) =
      some (s.adding t (.targetRead c callerRole targetRole)) :=
    membershipStep_of_not_delete rfl (Memberships.readTarget_adding hfree htarget hpermitted)
  have hready : step (s.adding t (.targetRead c callerRole targetRole))
      (.membership (.requireAnotherOwner t)) =
      some (s.adding t (.ready c callerRole targetRole)) :=
    membershipStep_of_not_delete rfl (Memberships.requireAnotherOwner_adding hfree howner)
  have hcommit : step (s.adding t (.written c callerRole targetRole))
      (.membership (.commitChange t)) = some (s.without caller target) :=
    membershipStep_of_not_delete rfl (Memberships.commitChange_adding hfree)
  have hdelete : (s.adding t (.ready c callerRole targetRole)).deletes (.writeChange t) =
      some target := deletes_adding hfree callerRole targetRole rfl
  unfold removeMember
  rw [removal_eq, run_cons hauthorize trivial, run_cons hlocked trivial, run_cons hread trivial,
    run_cons hread' trivial, run_cons hready trivial]
  by_cases hrefers : s.refers target
  · have hfails : step (s.adding t (.ready c callerRole targetRole))
        (.membership (.writeChange t)) = none := if_pos ⟨target, hdelete, hrefers⟩
    rw [if_pos hrefers, run, hfails]
    rfl
  · have hwrites : step (s.adding t (.ready c callerRole targetRole))
        (.membership (.writeChange t)) = some (s.adding t (.written c callerRole targetRole)) := by
      change (if _ then _ else _) = _
      rw [if_neg]
      · exact congrArg (Option.map _) (Memberships.writeChange_adding hfree htarget hmember)
      · rintro ⟨userId, hmem, hu⟩
        rw [hdelete] at hmem
        cases hmem
        exact hrefers hu
    rw [if_neg hrefers, run_cons hwrites trivial, run_cons hcommit trivial]
    rfl

end removal

/-! ## What members have done -/

/-- The member has created an upload token or asked for crashes to be processed again. -/
def State.active (s : State) (userId : Uuid) : Prop :=
  (∃ x ∈ s.tokens, x.createdBy = userId) ∨ ∃ x ∈ s.requests, x.requestedBy = some userId

/-- The step inserts neither a token nor a request of the user. -/
def Idle (userId : Uuid) (s : State) : Action → Prop
  | .insertToken c _ | .insertRequest c _ => ∀ x ∈ s.calls.find c, x.userId ≠ userId
  | _ => True

instance (userId : Uuid) (s : State) : DecidablePred (Idle userId s)
  | .insertToken .. | .insertRequest .. => inferInstanceAs (Decidable (∀ x ∈ _, _))
  | .membership _ | .authorizeProject .. | .authorizeUpload .. | .revokeToken ..
  | .upsertManifest .. | .insertSession .. | .insertAutomatic _ | .endCall _ => .isTrue trivial

section activity
variable {s s' : State} {c userId : Uuid}

theorem startCall_eq {u : Uuid} {work : Work} (hs : s.startCall c u work = some s') :
    s.calls.find c = none ∧ s' = { s with calls := s.calls.insert ⟨c, u, work⟩ } := by
  unfold State.startCall at hs
  split_ifs at hs with hused
  cases hs
  exact ⟨Option.not_isSome_iff_eq_none.mp hused, rfl⟩

theorem authorizeProject_eq {u : Uuid} {work : Work}
    (hs : authorizeProject s c u work = some s') :
    s.startCall c u work = some s' ∧ ∀ token, work ≠ .upload token := by
  obtain ⟨role, -, hs⟩ := Option.bind_eq_some_iff.mp hs
  cases work with
  | createToken =>
    obtain ⟨-, hs⟩ := Option.ite_none_right_eq_some.mp hs
    exact ⟨hs, nofun⟩
  | requestReprocessing =>
    obtain ⟨-, hs⟩ := Option.ite_none_right_eq_some.mp hs
    exact ⟨hs, nofun⟩
  | upload token => cases hs

theorem authorizeUpload_eq {token : Uuid} (hs : authorizeUpload s c token = some s') :
    ∃ x ∈ s.tokens, s.startCall c x.createdBy (.upload token) = some s' := by
  obtain ⟨x, hx, hs⟩ := Option.bind_eq_some_iff.mp hs
  obtain ⟨-, hs⟩ := Option.ite_none_left_eq_some.mp hs
  exact ⟨x, (Table.find_eq_some.mp hx).1, hs⟩

theorem insertToken_eq {token : Uuid} (hs : insertToken s c token = some s') :
    ∃ x, s.calls.find c = some x ∧ s.tokens.find token = none ∧
      s' = { s with tokens := s.tokens.insert ⟨token, x.userId, false⟩ } := by
  obtain ⟨x, hx, hs⟩ := Option.bind_eq_some_iff.mp hs
  obtain ⟨⟨-, -, hfree⟩, hs⟩ := Option.ite_none_right_eq_some.mp hs
  cases hs
  exact ⟨x, hx, hfree, rfl⟩

theorem revokeToken_eq {u token : Uuid} (hs : revokeToken s u token = some s') :
    s' = { s with
      tokens := s.tokens.modify token (fun x => { x with revoked := true }) fun _ => rfl } := by
  obtain ⟨role, -, hs⟩ := Option.bind_eq_some_iff.mp hs
  obtain ⟨-, hs⟩ := Option.ite_none_right_eq_some.mp hs
  cases hs
  rfl

theorem insertRequest_eq {request : Uuid} (hs : insertRequest s c request = some s') :
    ∃ x, s.calls.find c = some x ∧ s.requests.find request = none ∧
      s' = { s with requests := s.requests.insert ⟨request, some x.userId⟩ } := by
  obtain ⟨x, hx, hs⟩ := Option.bind_eq_some_iff.mp hs
  obtain ⟨⟨-, -, hfree⟩, hs⟩ := Option.ite_none_right_eq_some.mp hs
  cases hs
  exact ⟨x, hx, hfree, rfl⟩

theorem insertAutomatic_eq {request : Uuid} (hs : insertAutomatic s request = some s') :
    s.requests.find request = none ∧
      s' = { s with requests := s.requests.insert ⟨request, none⟩ } := by
  obtain ⟨hfree, hs⟩ := Option.ite_none_right_eq_some.mp hs
  cases hs
  exact ⟨hfree, rfl⟩

/-- An upload writes one manifest of the user of its call, who has a token. -/
theorem upsertManifest_eq {manifest releaseId : Uuid} {sourcePath : String}
    (hs : upsertManifest s c manifest releaseId sourcePath = some s') :
    ∃ x token manifests, s.calls.find c = some x ∧ x.work = .upload token ∧
      s' = { s with manifests := manifests } ∧
      ∀ m ∈ manifests, m ∈ s.manifests ∨ m.uploadedBy = x.userId := by
  obtain ⟨x, hx, hs⟩ := Option.bind_eq_some_iff.mp hs
  split at hs
  · next token hwork =>
    obtain ⟨-, hs⟩ := Option.ite_none_right_eq_some.mp hs
    split at hs
    · next m hm =>
      cases hs
      refine ⟨x, token, _, hx, hwork, rfl, fun y hy => ?_⟩
      rcases Table.mem_modify.mp hy with ⟨hy, -⟩ | ⟨z, -, rfl⟩
      · exact .inl hy
      · exact .inr rfl
    · obtain ⟨hfree, hs⟩ := Option.ite_none_right_eq_some.mp hs
      cases hs
      refine ⟨x, token, _, hx, hwork, rfl, fun y hy => ?_⟩
      rcases (Table.mem_insert hfree).mp hy with rfl | hy
      · exact .inr rfl
      · exact .inl hy
  · cases hs

theorem insertSession_eq {session manifest : Uuid}
    (hs : insertSession s c session manifest = some s') :
    ∃ x token sessions, s.calls.find c = some x ∧ x.work = .upload token ∧
      s' = { s with sessions := sessions } ∧
      ∀ y ∈ sessions, y ∈ s.sessions ∨ y.uploadedBy = x.userId := by
  obtain ⟨x, hx, hs⟩ := Option.bind_eq_some_iff.mp hs
  split at hs
  · next token hwork =>
    obtain ⟨⟨-, -, hfree⟩, hs⟩ := Option.ite_none_right_eq_some.mp hs
    cases hs
    refine ⟨x, token, _, hx, hwork, rfl, fun y hy => ?_⟩
    rcases (Table.mem_insert hfree).mp hy with rfl | hy
    · exact .inr rfl
    · exact .inl hy
  · cases hs

theorem membershipStep_eq {a : Memberships.Action} (hs : membershipStep s a = some s') :
    ∃ o, s' = { s with organization := o } := by
  obtain ⟨-, hs⟩ := Option.ite_none_left_eq_some.mp hs
  obtain ⟨o, -, rfl⟩ := Option.map_eq_some_iff.mp hs
  exact ⟨o, rfl⟩

theorem not_idle_iff {x : Call} (hx : s.calls.find c = some x) :
    (¬ ∀ y ∈ s.calls.find c, y.userId ≠ userId) ↔ x.userId = userId := by
  rw [hx]
  constructor
  · intro h
    by_contra hne
    exact h fun y hy => by
      cases hy
      exact hne
  · exact fun heq h => h x rfl heq

/-- The activity of a user comes from its own tokens and requests and stays. -/
theorem active_step {a : Action} (hs : step s a = some s') :
    s'.active userId ↔ s.active userId ∨ ¬ Idle userId s a := by
  have hidle : Idle userId s a → s'.active userId = s.active userId →
      (s'.active userId ↔ s.active userId ∨ ¬ Idle userId s a) := by
    intro h heq
    rw [heq]
    exact ⟨.inl, fun hor => hor.resolve_right fun hnot => hnot h⟩
  cases a with
  | membership a =>
    obtain ⟨o, rfl⟩ := membershipStep_eq hs
    exact hidle trivial rfl
  | authorizeProject c u work =>
    obtain ⟨-, rfl⟩ := startCall_eq (authorizeProject_eq hs).1
    exact hidle trivial rfl
  | authorizeUpload c token =>
    obtain ⟨x, -, hs⟩ := authorizeUpload_eq hs
    obtain ⟨-, rfl⟩ := startCall_eq hs
    exact hidle trivial rfl
  | insertToken c token =>
    obtain ⟨x, hx, hfree, rfl⟩ := insertToken_eq hs
    change _ ↔ _ ∨ ¬ ∀ y ∈ s.calls.find c, y.userId ≠ userId
    rw [not_idle_iff hx]
    have hmem : ∀ y, y ∈ s.tokens.insert ⟨token, x.userId, false⟩ ↔
        y = ⟨token, x.userId, false⟩ ∨ y ∈ s.tokens := fun y => Table.mem_insert hfree
    constructor
    · rintro (⟨y, hy, rfl⟩ | hrequest)
      · rcases (hmem y).mp hy with rfl | hy
        · exact .inr rfl
        · exact .inl (.inl ⟨y, hy, rfl⟩)
      · exact .inl (.inr hrequest)
    · rintro ((⟨y, hy, hu⟩ | hrequest) | hu)
      · exact .inl ⟨y, (hmem y).mpr (.inr hy), hu⟩
      · exact .inr hrequest
      · exact .inl ⟨_, (hmem _).mpr (.inl rfl), hu⟩
  | revokeToken u token =>
    obtain rfl := revokeToken_eq hs
    have hsame : (∃ y ∈ s.tokens.modify token (fun x => { x with revoked := true }) fun _ => rfl,
        y.createdBy = userId) ↔ ∃ y ∈ s.tokens, y.createdBy = userId := by
      constructor
      · rintro ⟨y, hy, hu⟩
        rcases Table.mem_modify.mp hy with ⟨hy, -⟩ | ⟨z, hz, rfl⟩
        · exact ⟨y, hy, hu⟩
        · exact ⟨z, (Table.find_eq_some.mp hz).1, hu⟩
      · rintro ⟨y, hy, hu⟩
        by_cases hid : y.id = token
        · have hfind : s.tokens.find token = some y := Table.find_eq_some.mpr ⟨hy, hid⟩
          exact ⟨_, Table.mem_modify.mpr (.inr ⟨y, hfind, rfl⟩), hu⟩
        · exact ⟨y, Table.mem_modify.mpr (.inl ⟨hy, hid⟩), hu⟩
    exact hidle trivial (propext (or_congr hsame Iff.rfl))
  | upsertManifest c manifest releaseId sourcePath =>
    obtain ⟨x, token, manifests, -, -, rfl, -⟩ := upsertManifest_eq hs
    exact hidle trivial rfl
  | insertSession c session manifest =>
    obtain ⟨x, token, sessions, -, -, rfl, -⟩ := insertSession_eq hs
    exact hidle trivial rfl
  | insertRequest c request =>
    obtain ⟨x, hx, hfree, rfl⟩ := insertRequest_eq hs
    change _ ↔ _ ∨ ¬ ∀ y ∈ s.calls.find c, y.userId ≠ userId
    rw [not_idle_iff hx]
    have hmem : ∀ y, y ∈ s.requests.insert ⟨request, some x.userId⟩ ↔
        y = ⟨request, some x.userId⟩ ∨ y ∈ s.requests := fun y => Table.mem_insert hfree
    constructor
    · rintro (htoken | ⟨y, hy, hu⟩)
      · exact .inl (.inl htoken)
      · rcases (hmem y).mp hy with rfl | hy
        · exact .inr (Option.some.inj hu)
        · exact .inl (.inr ⟨y, hy, hu⟩)
    · rintro ((htoken | ⟨y, hy, hu⟩) | hu)
      · exact .inl htoken
      · exact .inr ⟨y, (hmem y).mpr (.inr hy), hu⟩
      · exact .inr ⟨_, (hmem _).mpr (.inl rfl), congrArg some hu⟩
  | insertAutomatic request =>
    obtain ⟨hfree, rfl⟩ := insertAutomatic_eq hs
    have hmem : ∀ y, y ∈ s.requests.insert ⟨request, none⟩ ↔
        y = ⟨request, none⟩ ∨ y ∈ s.requests := fun y => Table.mem_insert hfree
    have hsame : (∃ y ∈ s.requests.insert ⟨request, none⟩, y.requestedBy = some userId) ↔
        ∃ y ∈ s.requests, y.requestedBy = some userId := by
      constructor
      · rintro ⟨y, hy, hu⟩
        rcases (hmem y).mp hy with rfl | hy
        · cases hu
        · exact ⟨y, hy, hu⟩
      · rintro ⟨y, hy, hu⟩
        exact ⟨y, (hmem y).mpr (.inr hy), hu⟩
    exact hidle trivial (propext (or_congr Iff.rfl hsame))
  | endCall c =>
    cases hs
    exact hidle trivial rfl

end activity

/-! ## Runs -/

/-- What is uploaded is uploaded with a token of its user. -/
structure State.Backed (s : State) : Prop where
  calls : ∀ x ∈ s.calls, ∀ token, x.work = .upload token → s.active x.userId
  manifests : ∀ m ∈ s.manifests, s.active m.uploadedBy
  sessions : ∀ y ∈ s.sessions, s.active y.uploadedBy

section runs
variable {s s' init : State} {userId t caller target : Uuid}

theorem State.Initial.backed (h : s.Initial) : s.Backed := by
  obtain ⟨-, hcalls, -, hmanifests, hsessions, -⟩ := h
  refine ⟨?_, ?_, ?_⟩
  · rw [hcalls]
    exact nofun
  · rw [hmanifests]
    exact nofun
  · rw [hsessions]
    exact nofun

theorem State.Initial.not_active (h : s.Initial) : ¬ s.active userId := by
  obtain ⟨-, -, htokens, -, -, hrequests⟩ := h
  unfold State.active
  rw [htokens, hrequests]
  rintro (⟨x, hx, -⟩ | ⟨x, hx, -⟩)
  · cases hx
  · cases hx

theorem State.Backed.startCall (h : s.Backed) {c u : Uuid} {work : Work}
    (hwork : ∀ token, work = .upload token → s.active u)
    (hs : s.startCall c u work = some s') : s'.Backed := by
  obtain ⟨hfree, rfl⟩ := startCall_eq hs
  refine ⟨fun x hx token hx' => ?_, h.manifests, h.sessions⟩
  rcases (Table.mem_insert hfree).mp hx with rfl | hx
  · exact hwork token hx'
  · exact h.calls x hx token hx'

theorem State.Backed.step (h : s.Backed) {a : Action} (hs : step s a = some s') : s'.Backed := by
  have hkept : ∀ u, s.active u → s'.active u := fun u hu => (active_step hs).mpr (.inl hu)
  cases a with
  | membership a =>
    obtain ⟨o, rfl⟩ := membershipStep_eq hs
    exact ⟨h.calls, h.manifests, h.sessions⟩
  | authorizeProject c u work =>
    obtain ⟨hs, hwork⟩ := authorizeProject_eq hs
    exact h.startCall (fun token heq => absurd heq (hwork token)) hs
  | authorizeUpload c token =>
    obtain ⟨x, hx, hs⟩ := authorizeUpload_eq hs
    exact h.startCall (fun _ _ => .inl ⟨x, hx, rfl⟩) hs
  | insertToken c token =>
    obtain ⟨x, -, -, rfl⟩ := insertToken_eq hs
    exact ⟨fun y hy token hw => hkept _ (h.calls y hy token hw),
      fun m hm => hkept _ (h.manifests m hm), fun y hy => hkept _ (h.sessions y hy)⟩
  | revokeToken u token =>
    obtain rfl := revokeToken_eq hs
    exact ⟨fun y hy token hw => hkept _ (h.calls y hy token hw),
      fun m hm => hkept _ (h.manifests m hm), fun y hy => hkept _ (h.sessions y hy)⟩
  | upsertManifest c manifest releaseId sourcePath =>
    obtain ⟨x, token, manifests, hx, hwork, rfl, hmanifests⟩ := upsertManifest_eq hs
    refine ⟨h.calls, fun m hm => ?_, h.sessions⟩
    rcases hmanifests m hm with hm | hm
    · exact h.manifests m hm
    · rw [hm]
      exact h.calls x (Table.find_eq_some.mp hx).1 token hwork
  | insertSession c session manifest =>
    obtain ⟨x, token, sessions, hx, hwork, rfl, hsessions⟩ := insertSession_eq hs
    refine ⟨h.calls, h.manifests, fun y hy => ?_⟩
    rcases hsessions y hy with hy | hy
    · exact h.sessions y hy
    · rw [hy]
      exact h.calls x (Table.find_eq_some.mp hx).1 token hwork
  | insertRequest c request =>
    obtain ⟨x, -, -, rfl⟩ := insertRequest_eq hs
    exact ⟨fun y hy token hw => hkept _ (h.calls y hy token hw),
      fun m hm => hkept _ (h.manifests m hm), fun y hy => hkept _ (h.sessions y hy)⟩
  | insertAutomatic request =>
    obtain ⟨-, rfl⟩ := insertAutomatic_eq hs
    exact ⟨fun y hy token hw => hkept _ (h.calls y hy token hw),
      fun m hm => hkept _ (h.manifests m hm), fun y hy => hkept _ (h.sessions y hy)⟩
  | endCall c =>
    cases hs
    refine ⟨fun x hx => ?_, h.manifests, h.sessions⟩
    exact h.calls x (Table.mem_delete.mp hx).1

theorem State.Backed.refers_iff (h : s.Backed) : s.refers userId ↔ s.active userId := by
  constructor
  · rintro (htoken | ⟨m, hm, rfl⟩ | ⟨y, hy, rfl⟩ | hrequest)
    · exact .inl htoken
    · exact h.manifests m hm
    · exact h.sessions y hy
    · exact .inr hrequest
  · rintro (htoken | hrequest)
    · exact .inl htoken
    · exact .inr (.inr (.inr hrequest))

/-- The removal succeeds, and the target is no member afterwards. -/
def State.Removes (s : State) (t caller target : Uuid) : Prop :=
  ∃ s', removeMember s t caller target = some s' ∧ s'.organization.db.role target = none

theorem removes_iff_not_refers (h : s.MayRemove t caller target) :
    s.Removes t caller target ↔ ¬ s.refers target := by
  unfold State.Removes
  rw [removeMember_eq h]
  split_ifs with hrefers
  · refine iff_of_false ?_ fun hnot => hnot hrefers
    rintro ⟨s', hs', -⟩
    cases hs'
  · refine iff_of_true ⟨_, rfl, ?_⟩ hrefers
    have hdeleted : (s.organization.db.members.delete target).find target = none :=
      Table.find_delete_self _ _
    exact congrArg (Option.map Memberships.Member.role) hdeleted

theorem not_active_of_idle (hinit : init.Initial)
    (h : Reachable (restrict step (Idle userId)) (fun _ => True) init s) :
    s.Backed ∧ ¬ s.active userId := by
  refine h.invariant (fun s => s.Backed ∧ ¬ s.active userId) ⟨hinit.backed, hinit.not_active⟩ ?_
  rintro s a s' - ⟨hbacked, hinactive⟩ hs -
  obtain ⟨hidle, hs⟩ := restrict_eq_some.mp hs
  refine ⟨hbacked.step hs, fun hactive => ?_⟩
  rcases (active_step hs).mp hactive with hactive | hnot
  · exact hinactive hactive
  · exact hnot hidle

theorem active_of_reachable (hactive : s.active userId)
    (h : Reachable step (fun _ => True) s s') : s'.active userId :=
  h.invariant (fun s => s.active userId) hactive fun _ _ _ _ hu hs _ =>
    (active_step hs).mpr (.inl hu)

/-- A removal succeeds just when no row refers to the member. It does in every run without a token
or request of the member, and after one of these it never does again. -/
theorem removes_iff_idle (target : Uuid) :
    (∀ s t caller, State.MayRemove s t caller target →
      (s.Removes t caller target ↔ ¬ s.refers target)) ∧
    (∀ init s t caller, State.Initial init →
      Reachable (restrict step (Idle target)) (fun _ => True) init s →
      s.MayRemove t caller target → s.Removes t caller target) ∧
    ∀ init s s' s'' a t caller, State.Initial init →
      Reachable step (fun _ => True) init s → step s a = some s' → ¬ Idle target s a →
      Reachable step (fun _ => True) s' s'' → s''.MayRemove t caller target →
      ¬ s''.Removes t caller target := by
  refine ⟨fun s t caller h => removes_iff_not_refers h, ?_, ?_⟩
  · intro init s t caller hinit hreach h
    obtain ⟨hbacked, hinactive⟩ := not_active_of_idle hinit hreach
    rw [removes_iff_not_refers h, hbacked.refers_iff]
    exact hinactive
  · intro init s s' s'' a t caller hinit hreach hs hnot hreach' h
    have hbacked : s.Backed :=
      hreach.invariant State.Backed hinit.backed fun _ _ _ _ hu hs _ => hu.step hs
    have hbacked' : s''.Backed :=
      hreach'.invariant State.Backed (hbacked.step hs) fun _ _ _ _ hu hs _ => hu.step hs
    have hactive := active_of_reachable ((active_step hs).mpr (.inr hnot)) hreach'
    rw [removes_iff_not_refers h, hbacked'.refers_iff]
    exact fun hinactive => hinactive hactive

/-! ### A member with a token and a member with a request -/

def founded : State :=
  ⟨Memberships.oneOwner, .empty, .empty, .empty, .empty, .empty⟩

theorem founded_initial : founded.Initial :=
  ⟨Memberships.oneOwner_initial, rfl, rfl, rfl, rfl, rfl⟩

/-- The guest accepts an invitation. -/
def joined (role : Role) : List Action :=
  let accepted : List Memberships.Action :=
    Memberships.invited 11 21 role ++ Memberships.accepting 12 21 ++ [.commitAcceptance 12]
  accepted.map .membership

def withToken : List Action :=
  joined .admin ++ [.authorizeProject 31 2 .createToken, .insertToken 31 41, .revokeToken 1 41]

def withRequest : List Action :=
  joined .developer ++ [.authorizeProject 31 2 .requestReprocessing, .insertRequest 31 51]

/-- The owner may remove the guest. -/
def State.OwnerMeetsGuest (s : State) : Prop :=
  s.organization.transactions.find 13 = none ∧
    (¬ s.organization.organizationLocked ∧ ¬ s.organization.memberLocked 2) ∧
    s.organization.db.role 1 = some .owner ∧
    ∃ role ∈ s.organization.db.role 2, role ≠ .owner

instance (s : State) : Decidable s.OwnerMeetsGuest := inferInstanceAs (Decidable (_ ∧ _))

theorem State.OwnerMeetsGuest.mayRemove {s : State} (h : s.OwnerMeetsGuest) :
    s.MayRemove 13 1 2 := by
  obtain ⟨hfresh, hfree, howner, role, hrole, hne⟩ := h
  exact ⟨hfresh, hfree, .owner, role, howner, hrole, ⟨rfl, nofun⟩, fun heq => absurd heq hne⟩

theorem removes_joined : ∃ s, run (restrict step (Idle 2)) (fun _ => True) founded
    (joined .developer) = some s ∧ s.Removes 13 1 2 := by
  have hrun : (run (restrict step (Idle 2)) (fun _ => True) founded
      (joined .developer)).isSome := by
    decide +kernel
  obtain ⟨s, hs⟩ := Option.isSome_iff_exists.mp hrun
  have hmeets : ∀ u ∈ run (restrict step (Idle 2)) (fun _ => True) founded (joined .developer),
      u.OwnerMeetsGuest := by
    decide +kernel
  have hreach := Reachable.of_run (.init trivial) hs
  exact ⟨s, hs, (removes_iff_idle 2).2.1 founded s 13 1 founded_initial hreach
    (hmeets s hs).mayRemove⟩

/-- An owner cannot remove an admin who has created a token, though it is revoked, nor a developer
who has asked for crashes to be processed again. -/
theorem not_removes_active :
    (¬ ∀ init s t caller target, State.Initial init → Reachable step (fun _ => True) init s →
      s.MayRemove t caller target → s.Removes t caller target) ∧
    ∀ actions ∈ [withToken, withRequest], ∃ s,
      run step (fun _ => True) founded actions = some s ∧ s.MayRemove 13 1 2 ∧
        ¬ s.Removes 13 1 2 := by
  have hruns : ∀ actions ∈ [withToken, withRequest], ∃ s,
      run step (fun _ => True) founded actions = some s ∧ s.MayRemove 13 1 2 ∧
        ¬ s.Removes 13 1 2 := by
    intro actions hactions
    have hsome : ∀ actions ∈ [withToken, withRequest],
        (run step (fun _ => True) founded actions).isSome := by
      decide +kernel
    have hrefers : ∀ actions ∈ [withToken, withRequest],
        ∀ u ∈ run step (fun _ => True) founded actions, u.OwnerMeetsGuest ∧ u.refers 2 := by
      decide +kernel
    obtain ⟨s, hs⟩ := Option.isSome_iff_exists.mp (hsome actions hactions)
    obtain ⟨hmeets, hs'⟩ := hrefers actions hactions s hs
    refine ⟨s, hs, hmeets.mayRemove, ?_⟩
    rw [removes_iff_not_refers hmeets.mayRemove]
    exact fun hnot => hnot hs'
  refine ⟨fun hall => ?_, hruns⟩
  obtain ⟨s, hs, hmay, hnot⟩ := hruns withToken (by simp)
  exact hnot (hall founded s 13 1 2 founded_initial (Reachable.of_run (.init trivial) hs) hmay)

end runs

end FaultLane.MemberActivity
