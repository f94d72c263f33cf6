import FaultLane.IssueRecounts

set_option autoImplicit false

/-!
# Publications keep the rollups of issues

An event joins an issue, a variant and a release when it is first grouped, and moves between
releases when it is published again. After any sequence of publications and repairs the stored
rollups are the recounts, and a repair changes nothing.
-/
namespace FaultLane.Issues
open KeyedTable JobQueue Grouping GroupSummary TransitionSystem

section
variable {s s' : State} {e e' : CrashEvent} {p : CrashEvent → Prop} [DecidablePred p]
  {stale : Uuid → Uuid → Prop}

theorem mem_of_setEvent (he : e ∈ s.events) (hid : e'.id = e.id) : e' ∈ (s.setEvent e').events :=
  (mem_setEvent he hid).mpr (.inr rfl)

theorem setEvent_represents (he : e ∈ s.events) (hid : e'.id = e.id) (hout : ¬ p e) {x : Rank}
    (hx : x ∈ ranks s.events p) : ∃ m ∈ (s.setEvent e').events, m.rank = x := by
  obtain ⟨m, hm, hpm, rfl⟩ := mem_ranks.mp hx
  have hne : m.id ≠ e.id := by
    intro heq
    obtain rfl := Table.eq_of_key_eq hm he heq
    exact hout hpm
  exact ⟨m, (mem_setEvent he hid).mpr (.inl ⟨hm, hne⟩), rfl⟩

theorem rank_not_mem (he : e ∈ s.events) (hid : e'.id = e.id) (hout : ¬ p e) :
    e'.rank ∉ ranks s.events p := by
  refine not_mem_ranks fun m hm hpm heq => hout ?_
  obtain rfl : m = e := Table.eq_of_key_eq hm he (heq.trans hid)
  exact hpm

theorem quality_of_issue {issueId : Uuid} (h : e.issue = some issueId) : e.quality.isSome := by
  unfold CrashEvent.issue at h
  unfold CrashEvent.quality
  cases hg : e.grouping <;> rw [hg] at h
  case grouped => rfl
  all_goals cases h

/-! ## New events -/

theorem ranks_insert {t : Table CrashEvent.id} (hnew : t.find e.id = none) (hout : ¬ p e) :
    ranks (t.insert e) p = ranks t p := by
  refine ranks_congr fun x => ?_
  constructor
  · rintro ⟨y, hy, hpy, rfl⟩
    rcases (Table.mem_insert hnew).mp hy with rfl | hy
    · exact absurd hpy hout
    · exact ⟨y, hy, hpy, rfl⟩
  · rintro ⟨y, hy, hpy, rfl⟩
    exact ⟨y, (Table.mem_insert hnew).mpr (.inr hy), hpy, rfl⟩

theorem State.Rolled.insertEvent (h : s.Rolled stale) {id : Uuid} {receivedAt : Nat}
    (hs : insertEvent s id receivedAt = some s') : s'.Rolled stale := by
  unfold Issues.insertEvent at hs
  split_ifs at hs with hfound
  obtain rfl := Option.some.inj hs
  have hnew : s.events.find id = none := Option.not_isSome_iff_eq_none.mp hfound
  have hout := not_in_of_ungrouped (e := ⟨id, receivedAt, .pending, .pending⟩) rfl
  refine ⟨fun i hi => ?_, fun x hx issueId hissue => ?_, fun i v => ?_, fun i r hr => ?_⟩
  · obtain ⟨σ, hσ, hrow⟩ := h.issues i hi
    refine ⟨σ, ?_, hrow⟩
    rw [ranks_insert hnew (hout i.id "" 0).1]
    exact hσ
  · rcases (Table.mem_insert hnew).mp hx with rfl | hx
    · cases hissue
    · exact h.named x hx issueId hissue
  · rw [ranks_insert hnew (hout i v 0).2.1]
    exact h.variants i v
  · rw [ranks_insert hnew (hout i "" r).2.2]
    exact h.releases i r hr

/-! ## Releases -/

theorem State.Rolled.addRelease (h : s.Rolled stale) {issueId releaseId : Uuid} {S : Finset Rank}
    (he : e ∈ s.events) (hin : InRelease issueId releaseId e)
    (hrow : Summarizes S (s.releases issueId releaseId)) (hnew : e.rank ∉ S)
    (hS : ∀ x ∈ S, ∃ m ∈ s.events, m.rank = x)
    (hjoin : ranks s.events (InRelease issueId releaseId) = insert e.rank S) :
    ∃ s', s.addReleaseMembership e.id issueId releaseId = some s' ∧
      s'.Rolled fun i r => stale i r ∧ ¬ (i = issueId ∧ r = releaseId) := by
  obtain ⟨row, hupsert, hsum⟩ := summarizes_upsert hrow he hnew hS
  refine ⟨s.setRelease issueId releaseId (some row), ?_, h.setRelease (hjoin ▸ hsum)⟩
  unfold State.addReleaseMembership
  rw [Table.find_eq_some.mpr ⟨he, rfl⟩, Option.bind_eq_bind, Option.bind_some, if_pos hin, hupsert]
  rfl

/-- A grouped event leaves its old release. -/
theorem State.Rolled.removeRelease (h : s.Rolled noneStale) (h' : s'.Rolled stale)
    {issueId releaseId : Uuid} (he : e ∈ s.events) (hin : InRelease issueId releaseId e)
    (hrows : s'.releases = s.releases)
    (hleave : ranks s'.events (InRelease issueId releaseId) =
      (ranks s.events (InRelease issueId releaseId)).erase e.rank) :
    ∃ row, s'.removeReleaseMembership e.id issueId releaseId e.receivedAt =
        some (s'.setRelease issueId releaseId row) ∧
      (s'.setRelease issueId releaseId row).Rolled
        fun i r => stale i r ∧ ¬ (i = issueId ∧ r = releaseId) := by
  have hmem : e.rank ∈ ranks s.events (InRelease issueId releaseId) :=
    mem_ranks.mpr ⟨e, he, hin, rfl⟩
  obtain ⟨hempty, -⟩ | ⟨σ, hσ, hrow⟩ := h.releases issueId releaseId not_false
  · exact absurd hempty (Finset.ne_empty_of_mem hmem)
  · obtain ⟨row, hremove, hsum⟩ :=
      summarizes_remove ((congrFun₂ hrows issueId releaseId).trans hrow) hσ hmem hleave
    exact ⟨row, hremove, h'.setRelease (hleave ▸ hsum)⟩

/-! ## First groupings -/

theorem ranks_issue_join (he : e ∈ s.events) (hid : e'.id = e.id) (hout : e.issue = none)
    {issueId : Uuid} (hin : e'.issue = some issueId) (i : Uuid) :
    ranks (s.setEvent e').events (InIssue i) =
      if i = issueId then insert e'.rank (ranks s.events (InIssue i))
      else ranks s.events (InIssue i) := by
  have hnot : ¬ InIssue i e := (not_in_of_ungrouped hout i "" 0).1
  split_ifs with hi
  · subst hi
    exact ranks_setEvent_join he hid hnot hin
  · have hnot' : ¬ InIssue i e' := fun h => hi (Option.some.inj (h.symm.trans hin))
    exact ranks_setEvent_same he hid (iff_of_false hnot' hnot) fun hp => absurd hp hnot

/-- The event is the first one of a new issue. -/
theorem State.Rolled.insertIssue (h : s.Rolled stale) (he : e ∈ s.events) (hid : e'.id = e.id)
    (hout : e.issue = none) {i : Issue} (hin : e'.issue = some i.id)
    (hfree : s.issues.find i.id = none)
    (hrow : i.rollup = some ⟨e'.receivedAt, e'.receivedAt, 1, e'.id⟩) :
    IssuesRolled (s.setEvent e').events (s.issues.insert i) := by
  intro j hj
  rw [ranks_issue_join he hid hout hin]
  rcases (Table.mem_insert hfree).mp hj with rfl | hj
  · have hempty : ranks s.events (InIssue j.id) = ∅ := by
      refine Finset.eq_empty_of_forall_notMem fun x hx => ?_
      obtain ⟨m, hm, hissue, -⟩ := mem_ranks.mp hx
      obtain ⟨k, hk, hkid⟩ := h.named m hm j.id hissue
      exact Table.find_eq_none.mp hfree k hk hkid
    rw [if_pos rfl, hempty]
    exact ⟨_, describes_singleton seenAt e'.rank, hrow⟩
  · have hne : j.id ≠ i.id := Table.find_eq_none.mp hfree j hj
    rw [if_neg hne]
    exact h.issues j hj

/-- The event joins an issue that was there before. -/
theorem State.Rolled.addToIssue (h : s.Rolled stale) (he : e ∈ s.events) (hid : e'.id = e.id)
    (hout : e.issue = none) {i : Issue} (hi : i ∈ s.issues) (hin : e'.issue = some i.id) :
    ∃ issues, (s.setEvent e').addToIssue i.id e' = some { s.setEvent e' with issues := issues } ∧
      IssuesRolled (s.setEvent e').events issues ∧
      ∀ j ∈ s.issues, ∃ k ∈ issues, k.id = j.id := by
  obtain ⟨σ, hσ, hrow⟩ := h.issues i hi
  obtain ⟨representative, hrepresentative, hrollup⟩ := Option.map_eq_some_iff.mp hrow
  obtain ⟨hfirst, hlast, hcount, hbest⟩ := Rollup.mk.injEq .. |>.mp hrollup
  have hnot : ¬ InIssue i.id e := (not_in_of_ungrouped hout i.id "" 0).1
  obtain ⟨m, hm, hissue, hrank⟩ := mem_ranks.mp hσ.best.1
  have hne : m.id ≠ e.id := by
    intro heq
    obtain rfl := Table.eq_of_key_eq hm he heq
    exact hnot hissue
  have hm' : m ∈ (s.setEvent e').events := (mem_setEvent he hid).mpr (.inl ⟨hm, hne⟩)
  have htakes := takesOver_eq (e := e') hm' hrank (hrepresentative.trans (congrArg some hbest))
    (quality_of_issue hin) (quality_of_issue hissue)
  have hfind : (s.setEvent e').issues.find i.id = some i := Table.find_eq_some.mpr ⟨hi, rfl⟩
  unfold State.addToIssue
  rw [hfind, Option.bind_eq_bind, Option.bind_some, htakes]
  refine ⟨_, rfl, fun j hj => ?_, fun j hj => ?_⟩
  · rw [ranks_issue_join he hid hout hin]
    simp only [Table.mem_modify] at hj
    rcases hj with ⟨hj, hne⟩ | ⟨k, hk, rfl⟩
    · rw [if_neg hne]
      exact h.issues j hj
    · obtain rfl : k = i := Option.some.inj (hk.symm.trans hfind)
      rw [if_pos rfl]
      refine ⟨_, hσ.add (rank_not_mem he hid hnot), ?_⟩
      unfold Issue.rollup
      rw [hfirst, hlast, hcount]
      rfl
  · simp only [Table.mem_modify]
    by_cases hj' : j.id = i.id
    · obtain rfl := Table.eq_of_key_eq hj hi hj'
      exact ⟨_, .inr ⟨j, hfind, rfl⟩, rfl⟩
    · exact ⟨j, .inl ⟨hj, hj'⟩, rfl⟩

/-- The event joins its variant, and its release is stale. -/
theorem State.Rolled.joinVariant (h : s.Rolled noneStale) (he : e ∈ s.events)
    (hout : e.issue = none) {issueId : Uuid} {fingerprint variant : String} {q : Nat}
    {issues : Table Issue.id}
    (he' : e' = { e with grouping := .grouped issueId fingerprint variant q })
    (hissues : IssuesRolled (s.setEvent e').events issues)
    (hkept : ∀ j ∈ s.issues, ∃ k ∈ issues, k.id = j.id) (hissue : ∃ k ∈ issues, k.id = issueId) :
    ∃ r, (s.setEvent e').upsert e' (s.variants issueId variant) = some r ∧
      ({ s.setEvent e' with issues := issues }.setVariant issueId variant (some r)).Rolled
        fun i r => i = issueId ∧ e.mapping.release = some r := by
  have hid : e'.id = e.id := by rw [he']
  have hin : e'.issue = some issueId := by rw [he']; rfl
  have hmapping : e'.mapping = e.mapping := by rw [he']
  have hvariant : e'.variant = some variant := by rw [he']; rfl
  have hnot : ¬ InVariant issueId variant e := (not_in_of_ungrouped hout issueId variant 0).2.1
  obtain ⟨r, hr, hsum⟩ := summarizes_upsert (s := s.setEvent e')
    (h.variants issueId variant) (mem_of_setEvent he hid) (rank_not_mem he hid hnot)
    fun x hx => setEvent_represents he hid hnot hx
  refine ⟨r, hr, hissues, fun x hx j hj => ?_, fun i v => ?_, fun i r hr => ?_⟩
  · rcases (mem_setEvent he hid).mp hx with ⟨hx, -⟩ | rfl
    · obtain ⟨k, hk, hkid⟩ := h.named x hx j hj
      obtain ⟨l, hl, hlid⟩ := hkept k hk
      exact ⟨l, hl, hlid.trans hkid⟩
    · obtain rfl : issueId = j := Option.some.inj (hin.symm.trans hj)
      exact hissue
  · change Summarizes (ranks (s.setEvent e').events _)
      (if i = issueId ∧ v = variant then some r else s.variants i v)
    split_ifs with heq
    · obtain ⟨rfl, rfl⟩ := heq
      rw [ranks_setEvent_join he hid hnot ⟨hin, hvariant⟩]
      exact hsum
    · have hnot' : ¬ InVariant i v e' := by
        rintro ⟨hi, hv⟩
        exact heq ⟨Option.some.inj (hi.symm.trans hin), Option.some.inj (hv.symm.trans hvariant)⟩
      have hold : ¬ InVariant i v e := (not_in_of_ungrouped hout i v 0).2.1
      change Summarizes (ranks (s.setEvent e').events _) _
      rw [ranks_setEvent_same he hid (iff_of_false hnot' hold) fun hp => absurd hp hold]
      exact h.variants i v
  · have hnot' : ¬ InRelease i r e' := by
      rintro ⟨hi, hm⟩
      exact hr ⟨Option.some.inj (hi.symm.trans hin), hmapping ▸ hm⟩
    have hold : ¬ InRelease i r e := (not_in_of_ungrouped hout i "" r).2.2
    change Summarizes (ranks (s.setEvent e').events _) _
    rw [ranks_setEvent_same he hid (iff_of_false hnot' hold) fun hp => absurd hp hold]
    exact h.releases i r not_false

theorem storeIssue_cases {f : Fingerprint} {newId issueId : Uuid} {isNew : Bool}
    (hs : s.storeIssue e f newId = some (s', issueId, isNew)) :
    (∃ i ∈ s.issues, i.id = issueId ∧ s' = s ∧ isNew = false) ∨
    (s.issues.find newId = none ∧ newId = issueId ∧ isNew = true ∧
      s' = { s with
        issues := s.issues.insert
          ⟨newId, f.issueFingerprint, f.title, e.receivedAt, e.receivedAt, 1, some e.id⟩ }) := by
  unfold State.storeIssue at hs
  split at hs
  next i hfind =>
    obtain ⟨rfl, rfl, rfl⟩ : s = s' ∧ i.id = issueId ∧ false = isNew := by
      simpa only [Option.some.injEq, Prod.mk.injEq] using hs
    exact .inl ⟨i, List.mem_of_find?_eq_some hfind, rfl, rfl, rfl⟩
  next =>
    split_ifs at hs with hfound
    obtain ⟨rfl, rfl, rfl⟩ := by
      simpa only [Option.some.injEq, Prod.mk.injEq] using hs
    exact .inr ⟨Option.not_isSome_iff_eq_none.mp hfound, rfl, rfl, rfl⟩

theorem State.Rolled.joinIssue (h : s.Rolled stale) (he : e ∈ s.events) (hid : e'.id = e.id)
    (hout : e.issue = none) (hseen : e'.receivedAt = e.receivedAt) {f : Fingerprint}
    {newId issueId : Uuid} {isNew : Bool} (hin : e'.issue = some issueId) {s₁ : State}
    (hs : s.storeIssue e f newId = some (s₁, issueId, isNew)) :
    ∃ issues, (if isNew then some (s₁.setEvent e') else (s₁.setEvent e').addToIssue issueId e') =
        some { s.setEvent e' with issues := issues } ∧
      IssuesRolled (s.setEvent e').events issues ∧
      (∀ j ∈ s.issues, ∃ k ∈ issues, k.id = j.id) ∧ ∃ k ∈ issues, k.id = issueId := by
  obtain ⟨i, hi, rfl, rfl, rfl⟩ | ⟨hfree, rfl, rfl, rfl⟩ := storeIssue_cases hs
  · obtain ⟨issues, hadd, hrolled, hkept⟩ := h.addToIssue he hid hout hi hin
    exact ⟨issues, hadd, hrolled, hkept, hkept i hi⟩
  · refine ⟨_, rfl, h.insertIssue he hid hout hin hfree ?_, fun j hj => ?_, ?_⟩
    · rw [hid, hseen]
      rfl
    · exact ⟨j, (Table.mem_insert hfree).mpr (.inr hj), rfl⟩
    · exact ⟨_, (Table.mem_insert hfree).mpr (.inl rfl), rfl⟩

/-- What `assign_issue` leaves for the releases. -/
theorem State.Rolled.assignIssue (h : s.Rolled noneStale) (he : e ∈ s.events)
    (hout : e.issue = none) {f : Fingerprint} {newId : Uuid} {a : GroupingAssignment}
    (hs : s.assignIssue e.id f newId = some (s', a)) :
    ∃ e', e'.id = e.id ∧ e'.mapping = e.mapping ∧ e'.issue = some a.issueId ∧
      a.firstAssignment = true ∧ s'.events = (s.setEvent e').events ∧
      s'.releases = s.releases ∧
      s'.Rolled fun i r => i = a.issueId ∧ e.mapping.release = some r := by
  unfold State.assignIssue at hs
  rw [Table.find_eq_some.mpr ⟨he, rfl⟩, Option.bind_eq_bind, Option.bind_some] at hs
  obtain ⟨⟨s₁, issueId, isNew⟩, hstore, hs⟩ := Option.bind_eq_some_iff.mp hs
  let e' : CrashEvent := { e with
    grouping := .grouped issueId f.issueFingerprint f.variantFingerprint f.groupingQuality }
  have hid : e'.id = e.id := rfl
  have hin : e'.issue = some issueId := rfl
  obtain ⟨issues, hjoin, hissues, hkept, hissue⟩ := h.joinIssue he hid hout rfl hin hstore
  obtain ⟨s₂, hs₂, hs⟩ := Option.bind_eq_some_iff.mp hs
  obtain rfl := Option.some.inj (hjoin.symm.trans hs₂)
  obtain ⟨r, hr, hrolled⟩ := h.joinVariant he hout rfl hissues hkept hissue
  obtain ⟨r', hr', hs⟩ := Option.bind_eq_some_iff.mp hs
  obtain rfl := Option.some.inj (hr.symm.trans hr')
  obtain ⟨rfl, rfl⟩ := Prod.mk.injEq .. |>.mp (Option.some.inj hs)
  exact ⟨e', rfl, rfl, rfl, rfl, rfl, rfl, hrolled⟩

/-- The first release of an event that has just been grouped. -/
theorem State.Rolled.firstRelease (h : s.Rolled noneStale) (he : e ∈ s.events)
    (hout : e.issue = none) (hid : e'.id = e.id) (hmapping : e'.mapping = e.mapping)
    {issueId : Uuid} (hin : e'.issue = some issueId) (hevents : s'.events = (s.setEvent e').events)
    (hrows : s'.releases = s.releases) {r : Uuid} (hr : e.mapping.release = some r)
    (h' : s'.Rolled fun i r => i = issueId ∧ e.mapping.release = some r) :
    ∃ t, s'.addReleaseMembership e.id issueId r = some t ∧ t.Rolled noneStale := by
  have hnot : ¬ InRelease issueId r e := (not_in_of_ungrouped hout issueId "" r).2.2
  have hin' : InRelease issueId r e' := ⟨hin, hmapping ▸ hr⟩
  have hmem : e' ∈ s'.events := hevents ▸ mem_of_setEvent he hid
  have hrow : Summarizes (ranks s.events (InRelease issueId r)) (s'.releases issueId r) := by
    rw [hrows]
    exact h.releases issueId r not_false
  have hjoin : ranks s'.events (InRelease issueId r) =
      insert e'.rank (ranks s.events (InRelease issueId r)) := by
    rw [hevents]
    exact ranks_setEvent_join he hid hnot hin'
  obtain ⟨t, ht, hrolled⟩ := h'.addRelease hmem hin' hrow (rank_not_mem he hid hnot)
    (fun x hx => hevents ▸ setEvent_represents he hid hnot hx) hjoin
  refine ⟨t, hid ▸ ht, hrolled.mono ?_⟩
  rintro i v ⟨⟨rfl, hv⟩, hne⟩
  exact hne ⟨rfl, Option.some.inj (hv.symm.trans hr)⟩

/-! ## Publications -/

/-- The old release of a grouped event that gets a new one. -/
theorem State.Rolled.leaveRelease (h : s.Rolled noneStale) (he : e ∈ s.events) {issueId : Uuid}
    (hissue : e.issue = some issueId) {m : ReleaseMapping} (hid : e'.id = e.id)
    (he' : e' = { e with mapping := m }) (hne : e.mapping.release ≠ m.release) :
    ∃ t, (s.setEvent e').leavePreviousRelease e.id
        ⟨issueId, false, e.mapping.release, e.receivedAt⟩ = some t ∧
      t.events = (s.setEvent e').events ∧
      (∀ r, m.release = some r → t.releases issueId r = s.releases issueId r) ∧
      t.Rolled fun i r => i = issueId ∧ m.release = some r := by
  subst he'
  have h' := h.setMapping he hissue m
  unfold State.leavePreviousRelease
  cases hold : e.mapping.release with
  | none =>
    refine ⟨_, rfl, rfl, fun _ _ => rfl, h'.mono ?_⟩
    rintro i r ⟨hi, hchange⟩
    refine ⟨hi, not_not.mp fun hnew => hchange (iff_of_false hnew ?_)⟩
    rw [hold]
    exact Option.some_ne_none r ∘ Eq.symm
  | some previous =>
    have hnot : ¬ InRelease issueId previous { e with mapping := m } :=
      fun hin => hne (hold.trans hin.2.symm)
    have hleave := ranks_setEvent_leave he hid hnot
    obtain ⟨row, hremove, hrolled⟩ := h.removeRelease h' he ⟨hissue, hold⟩ rfl hleave
    refine ⟨_, hremove, rfl, fun r hr => if_neg ?_, hrolled.mono ?_⟩
    · rintro ⟨-, rfl⟩
      exact hne (hold.trans hr.symm)
    · rintro i r ⟨⟨hi, hchange⟩, hother⟩
      refine ⟨hi, not_not.mp fun hnew => hchange (iff_of_false hnew fun hr => hother ⟨hi, ?_⟩)⟩
      exact Option.some.inj (hr.symm.trans hold)

/-- A later publication of a grouped event. -/
theorem State.Rolled.changeRelease (h : s.Rolled noneStale) (he : e ∈ s.events) {issueId : Uuid}
    (hissue : e.issue = some issueId) (m : ReleaseMapping) :
    ∃ t, (s.setEvent { e with mapping := m }).applyReleaseDelta e.id
        ⟨issueId, false, e.mapping.release, e.receivedAt⟩ m.release = some t ∧
      t.Rolled noneStale := by
  let e' : CrashEvent := { e with mapping := m }
  have hid : e'.id = e.id := rfl
  have hmem : e' ∈ (s.setEvent e').events := mem_of_setEvent he hid
  unfold State.applyReleaseDelta
  by_cases hsame : e.mapping.release = m.release
  · rw [if_pos ⟨rfl, hsame⟩]
    refine ⟨_, rfl, (h.setMapping he hissue m).mono ?_⟩
    rintro i r ⟨-, hchange⟩
    exact hchange (by rw [hsame])
  · rw [if_neg fun hboth => hsame hboth.2]
    obtain ⟨t, ht, hevents, hrows, hrolled⟩ := h.leaveRelease he hissue hid rfl hsame
    rw [ht, Option.bind_eq_bind, Option.bind_some]
    cases hm : m.release with
    | none =>
      refine ⟨t, rfl, hrolled.mono ?_⟩
      rintro i r ⟨-, hr⟩
      exact nomatch hm.symm.trans hr
    | some r =>
      have hnot : ¬ InRelease issueId r e := fun hin => hsame (hin.2.trans hm.symm)
      have hin : InRelease issueId r e' := ⟨hissue, hm⟩
      have hrow : Summarizes (ranks s.events (InRelease issueId r)) (t.releases issueId r) := by
        rw [hrows r hm]
        exact h.releases issueId r not_false
      have hjoin : ranks t.events (InRelease issueId r) =
          insert e'.rank (ranks s.events (InRelease issueId r)) := by
        rw [hevents]
        exact ranks_setEvent_join he hid hnot hin
      obtain ⟨u, hu, hdone⟩ := hrolled.addRelease (hevents ▸ hmem) hin hrow
        (rank_not_mem he hid hnot) (fun x hx => hevents ▸ setEvent_represents he hid hnot hx) hjoin
      refine ⟨u, hu, hdone.mono ?_⟩
      rintro i v ⟨⟨rfl, hv⟩, hother⟩
      exact hother ⟨rfl, Option.some.inj (hv.symm.trans hm)⟩

/-- The first publication that groups an event. -/
theorem State.Rolled.enterRelease (h : s.Rolled noneStale) (he : e ∈ s.events)
    (hout : e.issue = none) {f : Fingerprint} {newId : Uuid} {s₁ : State} {a : GroupingAssignment}
    (hs : s.assignIssue e.id f newId = some (s₁, a))
    (hd : s₁.applyReleaseDelta e.id a e.mapping.release = some s') : s'.Rolled noneStale := by
  obtain ⟨e', hid, hmapping, hin, hfirst, hevents, hrows, hrolled⟩ := h.assignIssue he hout hs
  unfold State.applyReleaseDelta State.leavePreviousRelease at hd
  rw [hfirst, if_neg fun hboth => Bool.noConfusion hboth.1, Option.bind_eq_bind,
    Option.bind_some] at hd
  cases hr : e.mapping.release with
  | none =>
    rw [hr] at hd
    obtain rfl := Option.some.inj hd
    refine hrolled.mono ?_
    rintro i r ⟨-, hsome⟩
    exact nomatch hr.symm.trans hsome
  | some r =>
    rw [hr] at hd
    obtain ⟨t, ht, hdone⟩ := h.firstRelease he hout hid hmapping hin hevents hrows hr hrolled
    obtain rfl := Option.some.inj (ht.symm.trans hd)
    exact hdone

theorem applyGrouping_of_issue {issueId : Uuid} (h : e.issue = some issueId)
    (g : GroupingPublication) (newId : Uuid) :
    s.applyGrouping e g newId =
      some (s, some ⟨issueId, false, e.mapping.release, e.receivedAt⟩) := by
  unfold CrashEvent.issue at h
  unfold State.applyGrouping
  cases hg : e.grouping <;> rw [hg] at h
  case grouped =>
    obtain rfl := Option.some.inj h
    rfl
  all_goals cases h

theorem applyGrouping_cases (he : e ∈ s.events) (hid : e'.id = e.id) (hout : e'.issue = none)
    {g : GroupingPublication} {newId : Uuid} {assignment : Option GroupingAssignment}
    (hs : s.applyGrouping e' g newId = some (s', assignment)) :
    (∃ f a, s.assignIssue e.id f newId = some (s', a) ∧ assignment = some a) ∨
    (assignment = none ∧ ∃ state, CrashEvent.issue { e with grouping := state } = none ∧
      s' = s.setEvent { e with grouping := state }) := by
  have hfind : s.events.find e.id = some e := Table.find_eq_some.mpr ⟨he, rfl⟩
  have hgroup : (match g with
      | .grouped f => (s.assignIssue e.id f newId).map fun r => (r.1, some r.2)
      | .disabled => some (s.setEvent { e with grouping := .disabled }, none)
      | .insufficient => some (s.setEvent { e with grouping := .insufficient }, none)) =
        some (s', assignment) := by
    unfold State.applyGrouping at hs
    rw [hid, hfind] at hs
    unfold CrashEvent.issue at hout
    cases hg : e'.grouping <;> rw [hg] at hs hout
    case grouped => cases hout
    all_goals cases g <;> exact hs
  cases g with
  | grouped f =>
    obtain ⟨⟨t, a⟩, hassign, hpair⟩ := Option.map_eq_some_iff.mp hgroup
    obtain ⟨rfl, rfl⟩ := Prod.mk.injEq .. |>.mp hpair
    exact .inl ⟨f, a, hassign, rfl⟩
  | disabled =>
    obtain ⟨rfl, rfl⟩ := Prod.mk.injEq .. |>.mp (Option.some.inj hgroup)
    exact .inr ⟨rfl, .disabled, rfl, rfl⟩
  | insufficient =>
    obtain ⟨rfl, rfl⟩ := Prod.mk.injEq .. |>.mp (Option.some.inj hgroup)
    exact .inr ⟨rfl, .insufficient, rfl, rfl⟩

theorem State.Rolled.publish (h : s.Rolled noneStale) {eventId newId : Uuid}
    {candidates : List Uuid} {g : GroupingPublication}
    (hs : publish s eventId candidates g newId = some s') : s'.Rolled noneStale := by
  unfold Issues.publish at hs
  obtain ⟨e, hfind, hs⟩ := Option.bind_eq_some_iff.mp hs
  obtain ⟨he, rfl⟩ := Table.find_eq_some.mp hfind
  obtain ⟨s₁, hs₁, hs⟩ := Option.bind_eq_some_iff.mp hs
  unfold State.recordReleaseMapping at hs₁
  rw [hfind, Option.bind_eq_bind, Option.bind_some] at hs₁
  obtain rfl := Option.some.inj hs₁
  obtain ⟨⟨s₂, assignment⟩, hgrouping, hs⟩ := Option.bind_eq_some_iff.mp hs
  cases hissue : e.issue with
  | some issueId =>
    rw [applyGrouping_of_issue hissue] at hgrouping
    obtain ⟨rfl, rfl⟩ := Prod.mk.injEq .. |>.mp (Option.some.inj hgrouping)
    obtain ⟨t, ht, hrolled⟩ := h.changeRelease he hissue (.of candidates)
    obtain rfl := Option.some.inj (ht.symm.trans hs)
    exact hrolled
  | none =>
    let e₁ : CrashEvent := { e with mapping := .of candidates }
    have hid : e₁.id = e.id := rfl
    have hlocked : e.id = e₁.id := rfl
    have he₁ : e₁ ∈ (s.setEvent e₁).events := mem_of_setEvent he hid
    have h₁ : (s.setEvent e₁).Rolled noneStale := h.setUngrouped he hid hissue hissue
    obtain ⟨f, a, hassign, rfl⟩ | ⟨rfl, state, hstate, rfl⟩ :=
      applyGrouping_cases he₁ hlocked hissue hgrouping
    · exact h₁.enterRelease he₁ hissue hassign hs
    · obtain rfl := Option.some.inj hs
      exact h₁.setUngrouped he₁ rfl hissue hstate

/-! ## Repairs -/

theorem State.Rolled.recount (h : s.Rolled noneStale) {i : Issue} (hi : i ∈ s.issues) :
    recount (s.select (InIssue i.id)) = i.rollup ∧ i.rollup.isSome := by
  obtain ⟨σ, hσ, hrow⟩ := h.issues i hi
  refine ⟨(recount_summarizes s.events (InIssue i.id)).unique (.inr ⟨σ, hσ, hrow⟩), ?_⟩
  rw [hrow]
  rfl

theorem State.Rolled.recount_variant (h : s.Rolled noneStale) (issueId : Uuid) (v : String) :
    Issues.recount (s.select (InVariant issueId v)) = s.variants issueId v :=
  (recount_summarizes s.events (InVariant issueId v)).unique (h.variants issueId v)

theorem State.Rolled.recount_release (h : s.Rolled noneStale) (issueId r : Uuid) :
    Issues.recount (s.select (InRelease issueId r)) = s.releases issueId r :=
  (recount_summarizes s.events (InRelease issueId r)).unique (h.releases issueId r not_false)

theorem setIssueRollup_self {i : Issue} {r : Rollup} (hi : i ∈ s.issues)
    (hr : i.rollup = some r) : s.setIssueRollup i.id r = s := by
  obtain ⟨representative, hrepresentative, rfl⟩ := Option.map_eq_some_iff.mp hr
  unfold State.setIssueRollup
  rw [Table.modify_eq_self]
  intro j hj hid
  obtain rfl := Table.eq_of_key_eq hj hi hid
  rw [← hrepresentative]

theorem State.Rolled.repairIssue (h : s.Rolled noneStale) {i : Issue} (hi : i ∈ s.issues) :
    repairIssue s i.id = some s := by
  obtain ⟨hrecount, hsome⟩ := h.recount hi
  obtain ⟨r, hr⟩ := Option.isSome_iff_exists.mp hsome
  have hvariants : (fun j v => if j = i.id then Issues.recount (s.select (InVariant i.id v))
      else s.variants j v) = s.variants := by
    funext j v
    split_ifs with hj
    · rw [hj, h.recount_variant]
    · rfl
  have hreleases : (fun j v => if j = i.id then Issues.recount (s.select (InRelease i.id v))
      else s.releases j v) = s.releases := by
    funext j v
    split_ifs with hj
    · rw [hj, h.recount_release]
    · rfl
  unfold Issues.repairIssue State.refresh
  rw [Table.find_eq_some.mpr ⟨hi, rfl⟩, Option.bind_eq_bind, Option.bind_some, hrecount, hr,
    Option.bind_eq_bind, Option.bind_some, hvariants, hreleases]
  exact congrArg some (setIssueRollup_self hi hr)

theorem State.Rolled.step (h : s.Rolled noneStale) {a : Action} (hs : step s a = some s') :
    s'.Rolled noneStale := by
  cases a with
  | insertEvent id receivedAt => exact h.insertEvent hs
  | publish eventId candidates grouping newIssueId => exact h.publish hs
  | repairIssue issueId =>
    obtain ⟨i, hfind, -⟩ := Option.bind_eq_some_iff.mp hs
    obtain ⟨hi, rfl⟩ := Table.find_eq_some.mp hfind
    obtain rfl := Option.some.inj ((h.repairIssue hi).symm.trans hs)
    exact h

theorem rolled_init : State.init.Rolled noneStale := by
  have hempty (p : CrashEvent → Prop) [DecidablePred p] : ranks State.init.events p = ∅ := rfl
  refine ⟨fun i hi => ?_, fun e he => ?_, fun i v => ?_, fun i r _ => ?_⟩
  · exact absurd hi (Table.not_mem_empty i)
  · exact absurd he (Table.not_mem_empty e)
  · exact .inl ⟨hempty _, rfl⟩
  · exact .inl ⟨hempty _, rfl⟩

/-- Every rollup is what a repair computes, and a repair changes nothing. -/
structure State.Exact (s : State) : Prop where
  issues : ∀ i ∈ s.issues, recount (s.select (InIssue i.id)) = i.rollup ∧ i.rollup.isSome
  variants : ∀ issueId v, recount (s.select (InVariant issueId v)) = s.variants issueId v
  releases : ∀ issueId r, recount (s.select (InRelease issueId r)) = s.releases issueId r
  repaired : ∀ i ∈ s.issues, repairIssue s i.id = some s

end

theorem exact_of_reachable {s : State} (h : Reachable step (fun _ => True) .init s) : s.Exact := by
  have hrolled : s.Rolled noneStale :=
    h.invariant (fun t => t.Rolled noneStale) rolled_init fun _ _ _ _ ht hs _ => ht.step hs
  exact ⟨fun i hi => hrolled.recount hi, hrolled.recount_variant, hrolled.recount_release,
    fun i hi => hrolled.repairIssue hi⟩

/-- Three events join one issue, and the one that was the first and the best of its release gets
another release. -/
def changedRelease : List Action :=
  [.insertEvent 1 50, .insertEvent 2 20, .insertEvent 3 70,
    .publish 1 [9] (.grouped ⟨"issue", "a", "Crash", 3⟩) 100,
    .publish 2 [9] (.grouped ⟨"issue", "b", "Crash", 5⟩) 101,
    .publish 3 [9] (.grouped ⟨"issue", "a", "Crash", 5⟩) 102,
    .publish 2 [8] .disabled 103, .repairIssue 100]

theorem exact_changedRelease :
    ∃ s, Reachable step (fun _ => True) .init s ∧ s.Exact ∧
      s.issues.rows.map Issue.rollup = [some ⟨20, 70, 3, 2⟩] ∧
      s.variants 100 "a" = some ⟨50, 70, 2, 3⟩ ∧ s.variants 100 "b" = some ⟨20, 20, 1, 2⟩ ∧
      s.releases 100 9 = some ⟨50, 70, 2, 3⟩ ∧ s.releases 100 8 = some ⟨20, 20, 1, 2⟩ := by
  have hrun : (run step (fun _ => True) .init changedRelease).isSome := by
    decide +kernel
  have hrows : ∀ u ∈ run step (fun _ => True) .init changedRelease,
      u.issues.rows.map Issue.rollup = [some ⟨20, 70, 3, 2⟩] ∧
      u.variants 100 "a" = some ⟨50, 70, 2, 3⟩ ∧ u.variants 100 "b" = some ⟨20, 20, 1, 2⟩ ∧
      u.releases 100 9 = some ⟨50, 70, 2, 3⟩ ∧ u.releases 100 8 = some ⟨20, 20, 1, 2⟩ := by
    decide +kernel
  obtain ⟨s, hs⟩ := Option.isSome_iff_exists.mp hrun
  have hreach := Reachable.of_run (.init trivial) hs
  exact ⟨s, hreach, exact_of_reachable hreach, hrows s hs⟩

end FaultLane.Issues
