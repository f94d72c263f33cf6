import FaultLane.IssuePublications
import FaultLane.IssueTransitions

set_option autoImplicit false

/-!
# Issues stay as the worker would compute them

One lemma for each step, and from them every run whose negotiations complete no issue's
releases.
-/
namespace FaultLane.IssueTransitions
open KeyedTable JobQueue Issues TransitionSystem

section
variable {s s' : State} {issueId releaseId : Uuid} {l : Lifecycle}

/-! ## The transition of one issue -/

/-- What the worker would write. -/
def State.computed (s : State) (issueId : Uuid) : Lifecycle :=
  (s.lifecycles issueId).withChronology (releaseChronology (s.evidence issueId))
    ((s.lifecycles issueId).transition (releaseChronology (s.evidence issueId))
      ((s.lifecycles issueId).resolvedInReleaseId.bind s.buildTimestamp))

theorem updateIssueTransitions_eq :
    s.updateIssueTransitions issueId true =
      (s.rollups.issues.find issueId).map fun _ =>
        s.setLifecycle issueId (s.computed issueId) := by
  unfold State.updateIssueTransitions
  cases s.rollups.issues.find issueId <;> rfl

theorem setLifecycle_self : s.setLifecycle issueId (s.lifecycles issueId) = s := by
  have hlifecycles : (fun i => if i = issueId then s.lifecycles issueId else s.lifecycles i) =
      s.lifecycles := by
    funext i
    split_ifs with hi
    · rw [hi]
    · rfl
  unfold State.setLifecycle
  rw [hlifecycles]

theorem lifecycles_setLifecycle_self : (s.setLifecycle issueId l).lifecycles issueId = l :=
  if_pos rfl

theorem lifecycles_setLifecycle_of_ne {i : Uuid} (h : i ≠ issueId) :
    (s.setLifecycle issueId l).lifecycles i = s.lifecycles i :=
  if_neg h

theorem computed_congr {i : Uuid} (hl : s'.lifecycles i = s.lifecycles i)
    (he : s'.evidence i = s.evidence i)
    (ht : (s.lifecycles i).resolvedInReleaseId.bind s'.buildTimestamp =
      (s.lifecycles i).resolvedInReleaseId.bind s.buildTimestamp) :
    s'.computed i = s.computed i := by
  unfold State.computed
  rw [hl, he, ht]

section
variable {c : ReleaseChronology} {t : Option Timestamp}

/-- The branch that is taken depends on two columns. -/
theorem transition_congr {l' : Lifecycle} (hstatus : l'.status = l.status)
    (hresolved : l'.resolvedInReleaseId = l.resolvedInReleaseId) :
    l'.transition c t = l.transition c t := by
  unfold Lifecycle.transition
  rw [hstatus, hresolved]

/-- The latest release is later than the one that the issue was resolved in. -/
def Later (c : ReleaseChronology) (t : Option Timestamp) : Prop :=
  c.valid ∧ ∃ resolved ∈ t, ∃ latest ∈ c.lastTimestamp, resolved < latest

theorem transition_of_later (hlater : Later c t) (h : l.resolvedInReleaseId.isSome) :
    l.transition c t = (.open, .regressed) := by
  unfold Lifecycle.transition
  dsimp only
  by_cases hstatus : l.status = .resolved
  · rw [if_pos hstatus]
    exact if_pos hlater
  · rw [if_neg hstatus, if_pos h]
    exact if_pos hlater

theorem transition_of_resolved (hlater : ¬ Later c t) (h : l.status = .resolved) :
    l.transition c t = (.resolved, .resolved) := by
  unfold Lifecycle.transition
  rw [if_pos h]
  exact if_neg hlater

theorem transition_of_open (h : l.status = .open) : (l.transition c t).1 = .open := by
  unfold Lifecycle.transition
  rw [if_neg (h ▸ nofun)]
  split_ifs <;> rfl

/-- What the transitions write, they keep. -/
theorem transition_idem (h : t.isSome → l.resolvedInReleaseId.isSome) :
    (l.withChronology c (l.transition c t)).transition c t = l.transition c t := by
  cases hstatus : l.status with
  | «open» => exact transition_congr ((transition_of_open hstatus).trans hstatus.symm) rfl
  | resolved =>
    by_cases hlater : Later c t
    · obtain ⟨-, resolved, hresolved, -⟩ := id hlater
      have hsome := h (Option.isSome_of_mem hresolved)
      rw [transition_of_later hlater hsome]
      exact transition_of_later hlater hsome
    · rw [transition_of_resolved hlater hstatus]
      exact transition_of_resolved hlater rfl

end

theorem computed_setLifecycle_computed :
    (s.setLifecycle issueId (s.computed issueId)).computed issueId = s.computed issueId := by
  have hidem := transition_idem (l := s.lifecycles issueId)
    (c := releaseChronology (s.evidence issueId))
    (t := (s.lifecycles issueId).resolvedInReleaseId.bind s.buildTimestamp) fun h => by
      obtain ⟨t, ht⟩ := Option.isSome_iff_exists.mp h
      obtain ⟨r, hr, -⟩ := Option.bind_eq_some_iff.mp ht
      exact Option.isSome_of_mem hr
  have hself : (s.setLifecycle issueId (s.computed issueId)).lifecycles issueId =
      s.computed issueId := lifecycles_setLifecycle_self
  unfold State.computed at hself ⊢
  rw [hself]
  exact congrArg (Lifecycle.withChronology _ _) hidem

/-! ## The two implementations agree -/

theorem later_iff {evidence : List ReleaseEvidence} {resolved : Timestamp} :
    Later (releaseChronology evidence) (some resolved) ↔
      hasProvablyLaterRelease evidence resolved = true := by
  rw [hasProvablyLaterRelease_iff]
  by_cases h : Provable evidence
  · rw [releaseChronology_eq h]
    exact ⟨fun ⟨_, _, heq, hlatest⟩ => ⟨h, Option.some.inj heq ▸ hlatest⟩,
      fun ⟨_, hlatest⟩ => ⟨rfl, resolved, rfl, hlatest⟩⟩
  · rw [releaseChronology_of_not_provable h]
    exact iff_of_false (fun hlater => nomatch hlater.1) fun hlater => h hlater.1

theorem transition_unresolved (hstatus : l.status = .open) (h : l.resolvedInReleaseId = none)
    (evidence : List ReleaseEvidence) (t : Option Timestamp) :
    l.transition (releaseChronology evidence) t = (.open, retainedRegressionState evidence) := by
  unfold Lifecycle.transition
  rw [hstatus, h, retainedRegressionState_eq]
  dsimp only
  rw [if_neg nofun, if_neg nofun]
  split_ifs <;> rfl

/-! ## The invariant -/

/-- Every issue is as the worker would compute it, apart from one that is being changed. -/
structure State.Invariant (s : State) (changing : Option Uuid) : Prop where
  rolled : s.rollups.Rolled noneStale
  known : ∀ i r, (s.rollups.releases i r).isSome → (s.releases.find r).isSome
  resolved : ∀ i, ∀ r ∈ (s.lifecycles i).resolvedInReleaseId, (s.buildTimestamp r).isSome
  computed : ∀ i ∈ s.rollups.issues, i.id ∉ changing → s.computed i.id = s.lifecycles i.id

theorem State.Invariant.regressed (h : s.Invariant none) {i : Issue} (hi : i ∈ s.rollups.issues)
    {resolved : Timestamp} (hr : releaseId ∈ (s.lifecycles i.id).resolvedInReleaseId)
    (ht : resolved ∈ s.buildTimestamp releaseId)
    (hlater : hasProvablyLaterRelease (s.evidence i.id) resolved) :
    (s.lifecycles i.id).status = .open ∧
      (s.lifecycles i.id).regressionState = .regressed := by
  have hbind : (s.lifecycles i.id).resolvedInReleaseId.bind s.buildTimestamp = some resolved :=
    Option.bind_eq_some_iff.mpr ⟨releaseId, hr, ht⟩
  have hcomputed := h.computed i hi nofun
  unfold State.computed at hcomputed
  rw [hbind, transition_of_later (later_iff.mpr hlater) (Option.isSome_of_mem hr)] at hcomputed
  rw [← hcomputed]
  exact ⟨rfl, rfl⟩

theorem State.Invariant.repairIssue_eq (h : s.Invariant none) {i : Issue} (hi : i ∈ s.rollups.issues) :
    repairIssue s i.id = some s := by
  unfold repairIssue
  rw [h.rolled.repairIssue hi, Option.bind_eq_bind, Option.bind_some, updateIssueTransitions_eq,
    Table.find_eq_some.mpr ⟨hi, rfl⟩, Option.map_some]
  exact congrArg some ((congrArg _ (h.computed i hi nofun)).trans setLifecycle_self)

theorem State.Invariant.current (h : s.Invariant none) : s.Current where
  computed i hi := by
    rw [updateIssueTransitions_eq, Table.find_eq_some.mpr ⟨hi, rfl⟩, Option.map_some,
      h.computed i hi nofun, setLifecycle_self]
  repaired i hi := h.repairIssue_eq hi
  regressed i hi _ hr _ ht hlater := h.regressed hi hr ht hlater

theorem invariant_init : State.init.Invariant none where
  rolled := rolled_init
  known _ _ h := nomatch h
  resolved _ _ h := nomatch h
  computed i hi _ := absurd hi (Table.not_mem_empty i)

/-! ## Requests -/

/-- One issue gets the columns that the worker would compute. -/
theorem State.Invariant.setLifecycle (h : s.Invariant (some issueId))
    (hresolved : ∀ r ∈ l.resolvedInReleaseId, (s.buildTimestamp r).isSome)
    (hl : (s.setLifecycle issueId l).computed issueId = l) :
    (s.setLifecycle issueId l).Invariant none where
  rolled := h.rolled
  known := h.known
  resolved i r hr := by
    by_cases hi : i = issueId
    · rw [hi, lifecycles_setLifecycle_self] at hr
      exact hresolved r hr
    · rw [lifecycles_setLifecycle_of_ne hi] at hr
      exact h.resolved i r hr
  computed i hi _ := by
    by_cases hid : i.id = issueId
    · rw [hid, lifecycles_setLifecycle_self]
      exact hl
    · have hsame := lifecycles_setLifecycle_of_ne (s := s) (l := l) hid
      rw [computed_congr hsame rfl rfl, hsame]
      exact h.computed i hi fun heq => hid (Option.some.inj heq).symm

theorem State.Invariant.but (h : s.Invariant none) (changing : Option Uuid) :
    s.Invariant changing :=
  ⟨h.rolled, h.known, h.resolved, fun i hi _ => h.computed i hi nofun⟩

theorem withChronology_eq_self {c : ReleaseChronology} {next : Status × RegressionState}
    (hfirst : c.first = l.firstReleaseId) (hlast : c.last = l.lastReleaseId)
    (hnext : next = (l.status, l.regressionState)) : l.withChronology c next = l := by
  unfold Lifecycle.withChronology
  rw [hfirst, hlast, hnext]

theorem State.Invariant.chronology (h : s.Invariant none) {i : Issue} (hi : i ∈ s.rollups.issues) :
    (releaseChronology (s.evidence i.id)).first = (s.lifecycles i.id).firstReleaseId ∧
      (releaseChronology (s.evidence i.id)).last = (s.lifecycles i.id).lastReleaseId :=
  ⟨congrArg Lifecycle.firstReleaseId (h.computed i hi nofun),
    congrArg Lifecycle.lastReleaseId (h.computed i hi nofun)⟩

theorem State.Invariant.resolveIssue (h : s.Invariant none)
    (hs : resolveIssue s issueId releaseId = some s') : s'.Invariant none := by
  obtain ⟨i, hi, hs⟩ := Option.bind_eq_some_iff.mp hs
  obtain ⟨t, ht, hs⟩ := Option.bind_eq_some_iff.mp hs
  cases hs
  obtain ⟨hin, rfl⟩ := Table.find_eq_some.mp hi
  refine (h.but _).setLifecycle (fun r hr => ?_) ?_
  · cases hr
    exact Option.isSome_of_mem ht
  obtain ⟨hfirst, hlast⟩ := h.chronology hin
  unfold State.computed
  rw [lifecycles_setLifecycle_self]
  refine withChronology_eq_self hfirst hlast ?_
  change Lifecycle.transition _ (releaseChronology (s.evidence i.id)) (s.buildTimestamp releaseId) = _
  rw [ht]
  dsimp only
  by_cases hlater : hasProvablyLaterRelease (s.evidence i.id) t = true
  · rw [if_pos hlater]
    exact transition_of_later (later_iff.mpr hlater) rfl
  · rw [if_neg hlater]
    exact transition_of_resolved (fun hl => hlater (later_iff.mp hl)) rfl

theorem State.Invariant.reopenIssue (h : s.Invariant none)
    (hs : reopenIssue s issueId = some s') : s'.Invariant none := by
  obtain ⟨i, hi, hs⟩ := Option.bind_eq_some_iff.mp hs
  cases hs
  obtain ⟨hin, rfl⟩ := Table.find_eq_some.mp hi
  refine (h.but _).setLifecycle nofun ?_
  obtain ⟨hfirst, hlast⟩ := h.chronology hin
  unfold State.computed
  rw [lifecycles_setLifecycle_self]
  exact withChronology_eq_self hfirst hlast (transition_unresolved rfl rfl (s.evidence i.id) none)

/-! ## Negotiations -/

theorem mem_members {r : Release} :
    r ∈ s.members issueId ↔ r ∈ s.releases ∧ (s.rollups.releases issueId r.id).isSome := by
  unfold State.members
  rw [List.mem_filter, Table.mem_rows]

theorem nodup_evidence : ((s.evidence issueId).map ReleaseEvidence.id).Nodup := by
  have hids : (s.evidence issueId).map ReleaseEvidence.id = (s.members issueId).map Release.id :=
    List.map_map
  rw [hids]
  exact s.releases.unique.sublist (List.filter_sublist.map Release.id)

theorem provable_evidence : Provable (s.evidence issueId) ↔
    s.members issueId ≠ [] ∧ Ordered (s.members issueId) := by
  rw [provable_iff nodup_evidence]
  unfold State.evidence Ordered
  simp only [ne_eq, List.map_eq_nil_iff, List.forall_mem_map]
  exact Iff.rfl

theorem Ordered.congr {releases releases' : List Release}
    (h : ∀ r, r ∈ releases ↔ r ∈ releases') : Ordered releases ↔ Ordered releases' := by
  unfold Ordered
  simp only [h]

theorem transition_of_invalid {c c' : ReleaseChronology} {t t' : Option Timestamp}
    (h : c.valid = false) (h' : c'.valid = false) : l.transition c t = l.transition c' t' := by
  unfold Lifecycle.transition
  dsimp only
  have hlater : ∀ p : Prop, ¬ (false = true ∧ p) := fun _ hp => nomatch hp.1
  rw [h, h', if_neg (hlater _), if_neg (hlater _), if_neg (hlater _), if_neg (hlater _),
    if_pos Bool.false_ne_true, if_pos Bool.false_ne_true]

/-- An issue whose releases are out of order, before and after. -/
theorem computed_of_not_provable (hl : s'.lifecycles issueId = s.lifecycles issueId)
    (h : ¬ Provable (s.evidence issueId)) (h' : ¬ Provable (s'.evidence issueId)) :
    s'.computed issueId = s.computed issueId := by
  unfold State.computed
  rw [hl, releaseChronology_of_not_provable h, releaseChronology_of_not_provable h']
  exact congrArg (Lifecycle.withChronology _ _) (transition_of_invalid rfl rfl)

section merge
variable {request : ReleaseRequest} {r : Release}

/-- The state after the conflict branch of a negotiation. -/
def State.merged (s : State) (request : ReleaseRequest) (r : Release) : State :=
  { s with
    releases := s.releases.modify r.id (fun r => r.merge request) fun r => r.id_merge request }

theorem find_merged (hr : r ∈ s.releases) (k : Uuid) :
    (s.merged request r).releases.find k =
      if k = r.id then some (r.merge request) else s.releases.find k := by
  split_ifs with hk
  · rw [hk]
    have hself := Table.find_modify_self s.releases r.id (fun r => r.merge request)
      fun r => r.id_merge request
    exact hself.trans (congrArg (Option.map _) (Table.find_eq_some.mpr ⟨hr, rfl⟩))
  · exact Table.find_modify_of_ne s.releases (fun r => r.merge request)
      (fun r => r.id_merge request) hk

theorem buildTimestamp_merged (hr : r ∈ s.releases) {k : Uuid} {t : Timestamp}
    (ht : s.buildTimestamp k = some t) : (s.merged request r).buildTimestamp k = some t := by
  unfold State.buildTimestamp at ht ⊢
  rw [find_merged hr]
  split_ifs with hk
  · rw [hk, Table.find_eq_some.mpr ⟨hr, rfl⟩, Option.bind_some] at ht
    rw [Option.bind_some]
    unfold Release.merge
    dsimp only
    rw [ht]
    rfl
  · exact ht

theorem members_merged : (s.merged request r).members issueId =
    (s.members issueId).map fun m => if m.id = r.id then m.merge request else m := by
  have hid : ∀ m : Release, (if m.id = r.id then m.merge request else m).id = m.id := by
    intro m
    split_ifs <;> rfl
  unfold State.members State.merged Table.modify
  dsimp only
  rw [List.filter_map]
  refine congrArg (List.map _) (List.filter_congr fun m _ => ?_)
  exact congrArg (fun k => (s.rollups.releases issueId k).isSome) (hid m)

theorem evidence_merged (hr : r ∈ s.releases)
    (h : r ∈ s.members issueId → (r.merge request).buildTimestamp = r.buildTimestamp) :
    (s.merged request r).evidence issueId = s.evidence issueId := by
  unfold State.evidence
  rw [members_merged, List.map_map]
  refine List.map_congr_left fun m hm => ?_
  dsimp only [Function.comp_apply]
  split_ifs with hid
  · obtain rfl := Table.eq_of_key_eq (mem_members.mp hm).1 hr hid
    exact congrArg (ReleaseEvidence.mk m.id) (h hm)
  · rfl

theorem mem_members_merged (hr : r ∈ s.members issueId) (m : Release) :
    m ∈ (s.merged request r).members issueId ↔
      m ∈ r.merge request :: (s.members issueId).filter fun m => m.id ≠ r.id := by
  rw [members_merged, List.mem_map, List.mem_cons, List.mem_filter]
  constructor
  · rintro ⟨x, hx, rfl⟩
    split_ifs with hid
    · obtain rfl := Table.eq_of_key_eq (mem_members.mp hx).1 (mem_members.mp hr).1 hid
      exact .inl rfl
    · exact .inr ⟨hx, decide_eq_true hid⟩
  · rintro (rfl | ⟨hm, hid⟩)
    · exact ⟨r, hr, if_pos rfl⟩
    · exact ⟨m, hm, if_neg (of_decide_eq_true hid)⟩

theorem State.Invariant.merged (h : s.Invariant none) (hr : r ∈ s.releases)
    (hname : r.name = request.name) (hnone : ¬ s.completes request r) :
    (s.merged request r).Invariant none where
  rolled := h.rolled
  known i k hk := by
    rw [find_merged hr]
    split_ifs
    · rfl
    · exact h.known i k hk
  resolved i k hk := by
    obtain ⟨t, ht⟩ := Option.isSome_iff_exists.mp (h.resolved i k hk)
    exact Option.isSome_of_mem (buildTimestamp_merged hr ht)
  computed i hi _ := by
    refine Eq.trans ?_ (h.computed i hi (by rintro ⟨⟩))
    by_cases hsame : r ∈ s.members i.id → (r.merge request).buildTimestamp = r.buildTimestamp
    · refine computed_congr rfl (evidence_merged hr hsame) ?_
      cases hresolved : (s.lifecycles i.id).resolvedInReleaseId with
      | none => rfl
      | some k =>
        obtain ⟨t, ht⟩ := Option.isSome_iff_exists.mp (h.resolved i.id k hresolved)
        rw [Option.bind_some, Option.bind_some, ht, buildTimestamp_merged hr ht]
    · obtain ⟨hmember, hother⟩ := Classical.not_imp.mp hsame
      have hmissing : r.buildTimestamp = none := by
        by_contra hsome
        obtain ⟨t, ht⟩ := Option.ne_none_iff_exists'.mp hsome
        unfold Release.merge at hother
        dsimp only at hother
        rw [ht] at hother
        exact hother rfl
      have hsupplied : request.buildTimestamp ≠ none := by
        intro heq
        unfold Release.merge at hother
        dsimp only at hother
        rw [hmissing, heq] at hother
        exact hother rfl
      refine computed_of_not_provable rfl (fun hp => ?_) fun hp => ?_
      · exact (provable_evidence.mp hp).2.1 r hmember hmissing
      · have hordered := (Ordered.congr (mem_members_merged hmember)).mp
          (provable_evidence.mp hp).2
        exact hnone ⟨hname, hmissing, hsupplied, i, hi, hmember, hordered⟩

end merge

theorem State.Invariant.insertRelease (h : s.Invariant none) {r : Release}
    (hnew : s.releases.find r.id = none) :
    State.Invariant { s with releases := s.releases.insert r } none := by
  have hfind : ∀ k, (s.releases.find k).isSome → (s.releases.insert r).find k = s.releases.find k :=
    fun k hk => Table.find_insert_of_ne fun heq => by
      rw [heq, hnew] at hk
      exact nomatch hk
  have hbuild : ∀ k, (s.buildTimestamp k).isSome →
      State.buildTimestamp { s with releases := s.releases.insert r } k = s.buildTimestamp k := by
    intro k hk
    unfold State.buildTimestamp at hk ⊢
    dsimp only
    rw [hfind k (Option.isSome_of_isSome_bind hk)]
  have hevidence : ∀ i, State.evidence { s with releases := s.releases.insert r } i =
      s.evidence i := by
    intro i
    unfold State.evidence State.members
    dsimp only
    rw [Table.rows_insert hnew, List.filter_cons_of_neg]
    intro hmember
    have hknown := h.known i r.id hmember
    rw [hnew] at hknown
    exact nomatch hknown
  refine ⟨h.rolled, fun i k hk => ?_, fun i k hk => ?_, fun i hi _ => ?_⟩
  · rw [hfind k (h.known i k hk)]
    exact h.known i k hk
  · rw [hbuild k (h.resolved i k hk)]
    exact h.resolved i k hk
  · refine Eq.trans (computed_congr (s := s) rfl (hevidence i.id) ?_) (h.computed i hi nofun)
    cases hresolved : (s.lifecycles i.id).resolvedInReleaseId with
    | none => rfl
    | some k => exact hbuild k (h.resolved i.id k hresolved)

theorem State.Invariant.upsertRelease (h : s.Invariant none) {request : ReleaseRequest} {newId : Uuid}
    (hnone : ∀ r ∈ s.releases.rows, ¬ s.completes request r)
    (hs : upsertRelease s request newId = some s') : s'.Invariant none := by
  unfold IssueTransitions.upsertRelease at hs
  split at hs
  · rename_i r hr
    cases hs
    have hin := List.mem_of_find?_eq_some hr
    exact h.merged hin (by simpa using List.find?_some hr) (hnone r hin)
  · split_ifs at hs with hfound
    cases hs
    exact h.insertRelease (Option.not_isSome_iff_eq_none.mp hfound)

/-! ## Publications -/

section publish
variable {r r' : Issues.State} {eventId newId : Uuid} {e : CrashEvent} {f : Grouping.Fingerprint}
  {g : GroupingPublication} {a : GroupingAssignment}

theorem addToIssue_frame (hs : r.addToIssue issueId e = some r') :
    r'.releases = r.releases ∧ ∀ i ∈ r'.issues, (r.issues.find i.id).isSome := by
  obtain ⟨i, hi, hs⟩ := Option.bind_eq_some_iff.mp hs
  cases hs
  refine ⟨rfl, fun j hj => ?_⟩
  have hfound := Table.isSome_find hj
  rwa [Table.isSome_find_modify] at hfound

theorem assignIssue_frame (hs : r.assignIssue eventId f newId = some (r', a)) :
    r'.releases = r.releases ∧ a.firstAssignment = true ∧
      ∀ i ∈ r'.issues, i.id ≠ a.issueId → (r.issues.find i.id).isSome := by
  obtain ⟨e, -, hs⟩ := Option.bind_eq_some_iff.mp hs
  obtain ⟨⟨r₁, id, isNew⟩, hstore, hs⟩ := Option.bind_eq_some_iff.mp hs
  obtain ⟨r₂, hadd, hs⟩ := Option.bind_eq_some_iff.mp hs
  obtain ⟨row, -, hs⟩ := Option.bind_eq_some_iff.mp hs
  cases hs
  rcases storeIssue_cases hstore with ⟨i, hi, rfl, rfl, rfl⟩ | ⟨hnew, rfl, rfl, rfl⟩
  · obtain ⟨hreleases, hissues⟩ := addToIssue_frame hadd
    exact ⟨hreleases, rfl, fun j hj _ => hissues j hj⟩
  · cases hadd
    refine ⟨rfl, rfl, fun j hj hne => ?_⟩
    rcases (Table.mem_insert hnew).mp hj with rfl | hj
    · exact absurd rfl hne
    · exact Table.isSome_find hj

theorem applyGrouping_frame {assignment : Option GroupingAssignment}
    (hs : r.applyGrouping e g newId = some (r', assignment)) :
    r'.releases = r.releases ∧
      (∀ i ∈ r'.issues, (∀ a ∈ assignment, i.id ≠ a.issueId) → (r.issues.find i.id).isSome) ∧
      ∀ a ∈ assignment, a.firstAssignment = false →
        ∀ i ∈ r'.issues, (r.issues.find i.id).isSome := by
  unfold Issues.State.applyGrouping at hs
  split at hs
  · cases hs
    exact ⟨rfl, fun i hi _ => Table.isSome_find hi, fun _ _ _ i hi => Table.isSome_find hi⟩
  all_goals
    split at hs
    · obtain ⟨⟨r₁, a⟩, hassign, heq⟩ := Option.map_eq_some_iff.mp hs
      cases heq
      obtain ⟨hreleases, hfirst, hissues⟩ := assignIssue_frame hassign
      refine ⟨hreleases, fun i hi hne => hissues i hi (hne a rfl), ?_⟩
      rintro _ ⟨⟩ hother
      exact absurd (hfirst.symm.trans hother) (by rintro ⟨⟩)
    · obtain ⟨x, -, hs⟩ := Option.bind_eq_some_iff.mp hs
      cases hs
      exact ⟨rfl, fun i hi _ => Table.isSome_find hi, by rintro _ ⟨⟩⟩
    · obtain ⟨x, -, hs⟩ := Option.bind_eq_some_iff.mp hs
      cases hs
      exact ⟨rfl, fun i hi _ => Table.isSome_find hi, by rintro _ ⟨⟩⟩

theorem removeReleaseMembership_eq {receivedAt : Nat}
    (hs : r.removeReleaseMembership eventId issueId releaseId receivedAt = some r') :
    ∃ row, r' = r.setRelease issueId releaseId row ∧ (r.releases issueId releaseId).isSome := by
  obtain ⟨row, hrow, hs⟩ := Option.bind_eq_some_iff.mp hs
  have hsome := Option.isSome_of_mem hrow
  split at hs
  · cases hs
    exact ⟨_, rfl, hsome⟩
  · split at hs
    · split at hs
      · cases hs
        exact ⟨_, rfl, hsome⟩
      · obtain ⟨best, -, hs⟩ := Option.bind_eq_some_iff.mp hs
        split at hs
        · obtain ⟨first, -, hs⟩ := Option.bind_eq_some_iff.mp hs
          obtain ⟨last, -, hs⟩ := Option.bind_eq_some_iff.mp hs
          cases hs
          exact ⟨_, rfl, hsome⟩
        · cases hs
          exact ⟨_, rfl, hsome⟩
    · cases hs

theorem addReleaseMembership_eq
    (hs : r.addReleaseMembership eventId issueId releaseId = some r') :
    ∃ row, r' = r.setRelease issueId releaseId row := by
  obtain ⟨e, -, hs⟩ := Option.bind_eq_some_iff.mp hs
  split_ifs at hs
  obtain ⟨row, -, hs⟩ := Option.bind_eq_some_iff.mp hs
  cases hs
  exact ⟨_, rfl⟩

/-- A change to the releases of one issue, which gains at most one. -/
structure OnlyReleases (r r' : Issues.State) (issueId : Uuid) (gained : Option Uuid) : Prop where
  issues : r'.issues = r.issues
  others : ∀ i, i ≠ issueId → r'.releases i = r.releases i
  gains : ∀ k, (r'.releases issueId k).isSome → (r.releases issueId k).isSome ∨ k ∈ gained

theorem OnlyReleases.refl (gained : Option Uuid) : OnlyReleases r r issueId gained :=
  ⟨rfl, fun _ _ => rfl, fun _ hk => .inl hk⟩

theorem OnlyReleases.trans {r₁ : Issues.State} {gained : Option Uuid}
    (h : OnlyReleases r r₁ issueId none) (h' : OnlyReleases r₁ r' issueId gained) :
    OnlyReleases r r' issueId gained where
  issues := h'.issues.trans h.issues
  others i hi := (h'.others i hi).trans (h.others i hi)
  gains k hk := (h'.gains k hk).imp_left fun hk => (h.gains k hk).resolve_right nofun

theorem onlyReleases_setRelease {row : Option Rollup} {gained : Option Uuid}
    (h : (r.releases issueId releaseId).isSome ∨ releaseId ∈ gained) :
    OnlyReleases r (r.setRelease issueId releaseId row) issueId gained where
  issues := rfl
  others i hi := by
    funext k
    exact if_neg fun heq => hi heq.1
  gains k hk := by
    by_cases heq : k = releaseId
    · rwa [heq]
    · have hrow : (r.setRelease issueId releaseId row).releases issueId k =
          r.releases issueId k := if_neg fun hk => heq hk.2
      rw [hrow] at hk
      exact .inl hk

theorem applyReleaseDelta_onlyReleases {release : Option Uuid}
    (hs : r.applyReleaseDelta eventId a release = some r') :
    OnlyReleases r r' a.issueId release := by
  unfold Issues.State.applyReleaseDelta at hs
  split_ifs at hs
  · cases hs
    exact .refl _
  · obtain ⟨r₁, hleave, hs⟩ := Option.bind_eq_some_iff.mp hs
    have hleft : OnlyReleases r r₁ a.issueId none := by
      unfold Issues.State.leavePreviousRelease at hleave
      split at hleave
      · obtain ⟨row, rfl, hsome⟩ := removeReleaseMembership_eq hleave
        exact onlyReleases_setRelease (.inl hsome)
      all_goals
        cases hleave
        exact .refl _
    refine hleft.trans ?_
    split at hs
    · obtain ⟨row, rfl⟩ := addReleaseMembership_eq hs
      exact onlyReleases_setRelease (.inr rfl)
    · cases hs
      exact .refl _

/-- What a publication does to the issues other than the one that it assigns. -/
structure Publishes (s : State) (rollups : Issues.State) (issueId : Option Uuid)
    (gained : Option Uuid) : Prop where
  rolled : rollups.Rolled noneStale
  known : ∀ k ∈ gained, (s.releases.find k).isSome
  issues : ∀ i ∈ rollups.issues, i.id ∉ issueId → (s.rollups.issues.find i.id).isSome
  others : ∀ i, i ∉ issueId → rollups.releases i = s.rollups.releases i
  gains : ∀ i k, (rollups.releases i k).isSome → (s.rollups.releases i k).isSome ∨ k ∈ gained

theorem publishCrashResult_cases (h : s.rollups.Rolled noneStale) {candidates : List Uuid}
    (hs : publishCrashResult s eventId candidates g newId true = some s') :
    ∃ rollups gained, (Publishes s rollups none gained ∧ s' = s.withRollups rollups) ∨
      ∃ issueId, Publishes s rollups (some issueId) gained ∧
        (s.withRollups rollups).updateIssueTransitions issueId true = some s' := by
  obtain ⟨existing, hexisting, hs⟩ := Option.bind_eq_some_iff.mp hs
  dsimp only at hs
  split_ifs at hs with hreferences
  obtain ⟨r₁, hrecord, hs⟩ := Option.bind_eq_some_iff.mp hs
  obtain ⟨⟨r₂, assignment⟩, hgroup, hs⟩ := Option.bind_eq_some_iff.mp hs
  obtain ⟨hreleases, hissues, hfirst⟩ := applyGrouping_frame hgroup
  obtain ⟨x, hx, heq⟩ := Option.bind_eq_some_iff.mp hrecord
  cases heq
  have hpublish : Issues.publish s.rollups eventId candidates g newId =
      assignment.elim (some r₂) fun a =>
        r₂.applyReleaseDelta eventId a (ReleaseMapping.of candidates).release := by
    unfold Issues.publish
    rw [hexisting]
    simp only [Option.bind_eq_bind, Option.bind_some, hrecord, hgroup]
    cases assignment <;> rfl
  cases assignment with
  | none =>
    cases hs
    refine ⟨r₂, (ReleaseMapping.of candidates).release, .inl ⟨⟨?_, hreferences, ?_, ?_, ?_⟩, rfl⟩⟩
    · exact h.publish hpublish
    · exact fun i hi _ => hissues i hi (by rintro _ ⟨⟩)
    · exact fun i _ => congrFun hreleases i
    · intro i k hk
      rw [hreleases] at hk
      exact .inl hk
  | some a =>
    obtain ⟨r₃, hdelta, hs⟩ := Option.bind_eq_some_iff.mp hs
    have honly := applyReleaseDelta_onlyReleases hdelta
    have hrolled := h.publish (hpublish.trans hdelta)
    have hothers : ∀ i, i ≠ a.issueId → r₃.releases i = s.rollups.releases i := fun i hi =>
      (honly.others i hi).trans (congrFun hreleases i)
    refine ⟨r₃, (ReleaseMapping.of candidates).release, ?_⟩
    split_ifs at hs with hsame
    · cases hs
      have hdone : r₃ = r₂ := by
        unfold Issues.State.applyReleaseDelta at hdelta
        rw [if_pos hsame] at hdelta
        exact (Option.some.inj hdelta).symm
      obtain rfl := hdone
      refine .inl ⟨⟨hrolled, hreferences, ?_, ?_, ?_⟩, rfl⟩
      · exact fun i hi _ => hfirst a rfl hsame.1 i hi
      · exact fun i _ => congrFun hreleases i
      · intro i k hk
        rw [hreleases] at hk
        exact .inl hk
    · refine .inr ⟨a.issueId, ⟨hrolled, hreferences, ?_, ?_, ?_⟩, hs⟩
      · intro i hi hne
        rw [honly.issues] at hi
        exact hissues i hi fun b hb heq => hne (Option.some.inj hb ▸ heq ▸ rfl)
      · exact fun i hi => hothers i fun heq => hi (heq ▸ rfl)
      · intro i k hk
        by_cases hi : i = a.issueId
        · rw [hi] at hk ⊢
          refine (honly.gains k hk).imp_left fun hk => ?_
          rwa [hreleases] at hk
        · rw [hothers i hi] at hk
          exact .inl hk

theorem State.Invariant.updateIssueTransitions (h : s.Invariant (some issueId))
    (hs : s.updateIssueTransitions issueId true = some s') : s'.Invariant none := by
  rw [updateIssueTransitions_eq] at hs
  obtain ⟨i, -, rfl⟩ := Option.map_eq_some_iff.mp hs
  exact h.setLifecycle (h.resolved issueId) computed_setLifecycle_computed

theorem State.Invariant.withRollups (h : s.Invariant none) {rollups : Issues.State}
    {changing gained : Option Uuid} (hp : Publishes s rollups changing gained) :
    (s.withRollups rollups).Invariant changing where
  rolled := hp.rolled
  known i k hk := (hp.gains i k hk).elim (h.known i k) fun hk => hp.known k hk
  resolved i k hk := by
    unfold State.withRollups at hk
    dsimp only at hk
    split_ifs at hk
    · exact h.resolved i k hk
    · cases hk
  computed i hi hne := by
    have hfound := hp.issues i hi hne
    have hsame : (s.withRollups rollups).lifecycles i.id = s.lifecycles i.id := if_pos hfound
    have hevidence : (s.withRollups rollups).evidence i.id = s.evidence i.id := by
      unfold State.evidence State.members State.withRollups
      dsimp only
      rw [hp.others i.id hne]
    obtain ⟨j, hj⟩ := Option.isSome_iff_exists.mp hfound
    obtain ⟨hj, hid⟩ := Table.find_eq_some.mp hj
    rw [computed_congr hsame hevidence rfl, hsame, ← hid]
    exact h.computed j hj (by rintro ⟨⟩)

theorem State.Invariant.publish (h : s.Invariant none) {candidates : List Uuid}
    (hs : publishCrashResult s eventId candidates g newId true = some s') :
    s'.Invariant none := by
  obtain ⟨rollups, gained, ⟨hp, rfl⟩ | ⟨issueId, hp, hs⟩⟩ := publishCrashResult_cases h.rolled hs
  · exact h.withRollups hp
  · exact (h.withRollups hp).updateIssueTransitions hs

end publish

/-! ## Runs -/

theorem State.Invariant.insertEvent (h : s.Invariant none) {id : Uuid} {receivedAt : Nat}
    {rollups : Issues.State} (hs : Issues.insertEvent s.rollups id receivedAt = some rollups) :
    State.Invariant { s with rollups := rollups } none := by
  have hrolled := h.rolled.insertEvent hs
  unfold Issues.insertEvent at hs
  split_ifs at hs
  cases hs
  exact ⟨hrolled, h.known, h.resolved, h.computed⟩

theorem State.Invariant.repairIssue (h : s.Invariant none)
    (hs : repairIssue s issueId = some s') : s'.Invariant none := by
  have hfound : ∃ i ∈ s.rollups.issues, i.id = issueId := by
    obtain ⟨r, hr, -⟩ := Option.bind_eq_some_iff.mp hs
    obtain ⟨i, hi, -⟩ := Option.bind_eq_some_iff.mp hr
    exact ⟨i, Table.find_eq_some.mp hi⟩
  obtain ⟨i, hi, rfl⟩ := hfound
  obtain rfl := Option.some.inj ((h.repairIssue_eq hi).symm.trans hs)
  exact h

theorem State.Invariant.step (h : s.Invariant none) {action : Action}
    (hnone : CompletesNone s action) (hs : step s action = some s') : s'.Invariant none := by
  cases action with
  | insertEvent id receivedAt =>
    obtain ⟨rollups, hr, hs⟩ := Option.bind_eq_some_iff.mp hs
    cases hs
    exact h.insertEvent hr
  | publish eventId candidates grouping newIssueId => exact h.publish hs
  | repairIssue issueId => exact h.repairIssue hs
  | resolveIssue issueId releaseId => exact h.resolveIssue hs
  | reopenIssue issueId => exact h.reopenIssue hs
  | negotiate release newReleaseId => exact h.upsertRelease hnone hs

end

/-- As long as no negotiation completes the releases of an issue, every issue is as the worker
would compute it. -/
theorem current_of_reachable {s : State}
    (h : Reachable (restrict step CompletesNone) (fun _ => True) .init s) : s.Current := by
  have hinvariant : s.Invariant none :=
    h.invariant (fun t => t.Invariant none) invariant_init fun t action t' _ ht hs _ => by
      obtain ⟨hnone, hs⟩ := restrict_eq_some.mp hs
      exact ht.step hnone hs
  exact hinvariant.current

/-- A crash in a later release reopens a resolved issue. -/
def regressedRun : List Action :=
  [.negotiate ⟨⟨"1.0.0", "windows", "x86_64", "Shipping"⟩, none, none, some 10⟩ 1,
    .negotiate ⟨⟨"2.0.0", "windows", "x86_64", "Shipping"⟩, none, none, some 20⟩ 2,
    .insertEvent 5 100, .publish 5 [1] (.grouped ⟨"issue", "a", "Crash", 3⟩) 50,
    .resolveIssue 50 1, .insertEvent 6 200,
    .publish 6 [2] (.grouped ⟨"issue", "a", "Crash", 3⟩) 51]

theorem current_regressedRun :
    ∃ s, Reachable (restrict step CompletesNone) (fun _ => True) .init s ∧ s.Current ∧
      s.lifecycles 50 = ⟨.open, .regressed, some 1, some 2, some 1⟩ := by
  have hrun : (run (restrict step CompletesNone) (fun _ => True) .init regressedRun).any
      (fun s => s.lifecycles 50 = ⟨.open, .regressed, some 1, some 2, some 1⟩) = true := by
    decide +kernel
  obtain ⟨s, hs, hlifecycle⟩ := Option.any_eq_true _ _ |>.mp hrun
  have hreachable := (Reachable.init trivial).of_run hs
  exact ⟨s, hreachable, current_of_reachable hreachable, of_decide_eq_true hlifecycle⟩

/-- The later release gets its timestamp after the crash in it was published. -/
def suppliedRun : List Action :=
  [.negotiate ⟨⟨"1.0.0", "windows", "x86_64", "Shipping"⟩, none, none, some 10⟩ 1,
    .negotiate ⟨⟨"2.0.0", "windows", "x86_64", "Shipping"⟩, none, none, none⟩ 2,
    .insertEvent 5 100, .publish 5 [1] (.grouped ⟨"issue", "a", "Crash", 3⟩) 50,
    .resolveIssue 50 1, .insertEvent 6 200,
    .publish 6 [2] (.grouped ⟨"issue", "a", "Crash", 3⟩) 51,
    .negotiate ⟨⟨"2.0.0", "windows", "x86_64", "Shipping"⟩, none, none, some 20⟩ 3]

/-- The issue stays resolved, with a crash in a provably later release. -/
theorem not_current_suppliedRun :
    ∃ s, Reachable step (fun _ => True) .init s ∧ ¬ s.Current ∧
      hasProvablyLaterRelease (s.evidence 50) 10 = true ∧
      s.lifecycles 50 = ⟨.resolved, .resolved, none, none, some 1⟩ := by
  have hrun : (run step (fun _ => True) .init suppliedRun).any
      (fun s => (s.rollups.issues.find 50).isSome ∧ s.buildTimestamp 1 = some 10 ∧
        hasProvablyLaterRelease (s.evidence 50) 10 = true ∧
        s.lifecycles 50 = ⟨.resolved, .resolved, none, none, some 1⟩) = true := by
    decide +kernel
  obtain ⟨s, hs, hfacts⟩ := Option.any_eq_true _ _ |>.mp hrun
  obtain ⟨hfound, ht, hlater, hlifecycle⟩ := of_decide_eq_true hfacts
  refine ⟨s, (Reachable.init trivial).of_run hs, fun hcurrent => ?_, hlater, hlifecycle⟩
  obtain ⟨i, hi⟩ := Option.isSome_iff_exists.mp hfound
  obtain ⟨hi, hid⟩ := Table.find_eq_some.mp hi
  have hregressed := hcurrent.regressed i hi 1
  rw [hid, hlifecycle] at hregressed
  exact nomatch (hregressed rfl 10 ht hlater).1

end FaultLane.IssueTransitions
