import FaultLane.CrashIngest

set_option autoImplicit false

/-!
# Events, jobs and answers of the ingest system

The unique index on project and crash GUID across open transactions, the job of each
event, and the event behind each acknowledgement.
-/
namespace FaultLane.CrashIngest
open KeyedTable RustText

def Phase.response : Phase → Option Response
  | .cleaning _ response | .answered response => some response
  | _ => none

def State.eventJobs (s : State) (id : Uuid) : Nat :=
  s.jobs.countP fun j => j.eventId = id ∧ j.jobType = .processCrash

def State.indexed (s : State) (projectId : Uuid) (guid : Text) : Nat :=
  s.events.countP fun e => e.indexedBy projectId guid

/-- A submission answered, or about to answer, with an event that the project has. -/
def State.Acknowledges (s : State) (t : Submission) : Prop :=
  ∀ id deduplicated, t.phase.response = some (.accepted id deduplicated) →
    ∃ e ∈ s.events, e.id = id ∧ e.projectId = t.objectKey.projectId

structure Registry (s : State) : Prop where
  ids : ∀ t ∈ s.submissions, ∀ t' ∈ s.submissions,
    t.objectKey.eventId = t'.objectKey.eventId → t.objectKey = t'.objectKey
  event : ∀ e ∈ s.events, e.objectKey.eventId = e.id ∧ ∃ t, s.submissions.find e.objectKey = some t
  indexed : ∀ projectId guid, s.indexed projectId guid ≤ 1
  free : ∀ t ∈ s.submissions, ∀ projectId guid, t.holds projectId guid →
    s.indexed projectId guid = 0
  holder : ∀ t ∈ s.submissions, ∀ t' ∈ s.submissions, ∀ projectId guid,
    t.holds projectId guid → t'.holds projectId guid → t.objectKey = t'.objectKey
  job : ∀ e ∈ s.events, s.eventJobs e.id = 1
  jobEvent : ∀ j ∈ s.jobs, ∃ e ∈ s.events, e.id = j.eventId
  acknowledged : ∀ t ∈ s.submissions, s.Acknowledges t

/-! ## What a statement of a submission does to the registry -/

/-- Only objects and orphan rows differ. -/
structure SameRegistry (s u : State) : Prop where
  now : u.now = s.now
  events : u.events = s.events
  jobs : u.jobs = s.jobs
  submissions : u.submissions = s.submissions
  reconcilers : u.reconcilers = s.reconcilers

section
variable {s s' u : State} {k : ObjectKey} {t : Submission}

theorem SameRegistry.refl (s : State) : SameRegistry s s := ⟨rfl, rfl, rfl, rfl, rfl⟩

theorem SameRegistry.after {effect : State → State} (h : SameRegistry s (effect s))
    (applied : Bool) : SameRegistry s (s.after effect applied) := by
  cases applied with
  | false => exact .refl s
  | true => exact h

theorem SameRegistry.recordOrphan (s : State) (k : ObjectKey) :
    SameRegistry s (s.recordOrphan k) := by
  unfold State.recordOrphan
  split <;> exact ⟨rfl, rfl, rfl, rfl, rfl⟩

/-- A phase that takes no index entry and acknowledges no event on its own authority. -/
structure Justified (s : State) (t : Submission) (p : Phase) : Prop where
  held : ∀ guid, p.heldGuid = some guid → t.phase.heldGuid = some guid ∨
    (s.indexed t.objectKey.projectId guid = 0 ∧
      ∀ t' ∈ s.submissions, ¬ t'.holds t.objectKey.projectId guid)
  acknowledges : ∀ id deduplicated, p.response = some (.accepted id deduplicated) →
    t.phase.response = some (.accepted id deduplicated) ∨
      ∃ e ∈ s.events, e.id = id ∧ e.projectId = t.objectKey.projectId

inductive Advanced (s : State) (t : Submission) : State → Prop where
  | quiet {u : State} {p : Phase} (hu : SameRegistry s u) (hp : Justified s t p) :
      Advanced s t (u.advance t.objectKey p)
  | committed {guid : Option Text} {p : Phase} (hphase : t.phase = .committing guid ∨ t.phase = .inDoubt guid)
      (hp : p = .answered (.accepted t.objectKey.eventId false) ∨
        p = .answered (.refused .commitUncertain)) :
      Advanced s t ((s.commitEvent t.objectKey guid).advance t.objectKey p)

theorem Justified.of_none {p : Phase} (hh : p.heldGuid = none)
    (hr : ∀ id deduplicated, p.response ≠ some (.accepted id deduplicated)) : Justified s t p where
  held guid h := by rw [hh] at h; cases h
  acknowledges id deduplicated h := absurd h (hr id deduplicated)

theorem Justified.of_response {p : Phase} (hh : p.heldGuid = none)
    (hr : p.response = t.phase.response) : Justified s t p where
  held guid h := by rw [hh] at h; cases h
  acknowledges id deduplicated h := .inl (by rw [← hr, h])

theorem Justified.of_event {p : Phase} {e : CrashEvent} {guid : Text}
    (he : s.findEvent t.objectKey.projectId guid = some e)
    (hp : p = .cleaning .deleting (.accepted e.id true)) : Justified s t p where
  held guid h := by rw [hp] at h; cases h
  acknowledges id deduplicated h := by
    rw [hp] at h
    cases h
    have hi : e.indexedBy t.objectKey.projectId guid := by simpa using List.find?_some he
    exact .inr ⟨e, List.mem_of_find?_eq_some he, rfl, hi.1⟩

theorem indexed_eq_zero {projectId : Uuid} {guid : Text} :
    s.indexed projectId guid = 0 ↔ s.findEvent projectId guid = none := by
  simp [State.indexed, State.findEvent, List.countP_eq_zero, List.find?_eq_none]

theorem submitCrash_advanced {a : RequestStep} (h : submitCrash s t a = some s') :
    Advanced s t s' := by
  cases a with
  | registerPendingObject reply =>
    simp only [submitCrash, Option.ite_none_right_eq_some, Option.some.injEq] at h
    obtain ⟨hp, rfl⟩ := h
    refine .quiet (.after ⟨rfl, rfl, rfl, rfl, rfl⟩ _) ?_
    cases reply <;> exact .of_none rfl nofun
  | storeRequest =>
    simp only [submitCrash, Option.ite_none_right_eq_some, Option.some.injEq] at h
    obtain ⟨hp, rfl⟩ := h
    exact .quiet ⟨rfl, rfl, rfl, rfl, rfl⟩ (.of_none rfl nofun)
  | storeRequestFailed error stored =>
    simp only [submitCrash, Option.ite_none_right_eq_some, Option.some.injEq] at h
    obtain ⟨⟨hp, -⟩, rfl⟩ := h
    exact .quiet (.after ⟨rfl, rfl, rfl, rfl, rfl⟩ _) (.of_none rfl nofun)
  | inspectSpool manifest =>
    simp only [submitCrash, Option.ite_none_right_eq_some, Option.some.injEq] at h
    obtain ⟨hp, rfl⟩ := h
    refine .quiet (.refl s) ?_
    cases manifest <;> exact .of_none rfl nofun
  | selectExisting =>
    simp only [submitCrash] at h
    split at h <;> cases h
    next guid hp =>
    refine .quiet (.refl s) ?_
    split
    · next e he =>
      obtain ⟨guid, -, he⟩ := Option.bind_eq_some_iff.mp he
      exact .of_event he rfl
    · exact .of_none rfl nofun
  | insertEvent =>
    simp only [submitCrash] at h
    split at h
    · next guid hp =>
      unfold insertEvent at h
      split at h
      · cases h
        exact .quiet (.refl s) (.of_none rfl nofun)
      · next guid =>
        split_ifs at h with hfound hheld <;> cases h
        · exact .quiet (.refl s) (.of_none rfl nofun)
        · refine .quiet (.refl s) ⟨fun guid' hg => .inr ?_, nofun⟩
          cases hg
          refine ⟨indexed_eq_zero.mpr (Option.not_isSome_iff_eq_none.mp hfound), ?_⟩
          simpa [Table.mem_rows] using hheld
    · cases h
  | readExisting =>
    simp only [submitCrash] at h
    split at h <;> cases h
    next guid hp =>
    refine .quiet (.refl s) ?_
    split
    · next e he => exact .of_event he rfl
    · exact .of_none rfl nofun
  | persistFailed error =>
    simp only [submitCrash, Option.ite_none_right_eq_some, Option.some.injEq] at h
    obtain ⟨-, rfl⟩ := h
    exact .quiet (.refl s) (.of_none rfl nofun)
  | commit =>
    simp only [submitCrash] at h
    split at h <;> cases h
    next guid hp => exact .committed (.inl hp) (.inl rfl)
  | commitUncertain =>
    simp only [submitCrash] at h
    split at h <;> cases h
    next guid hp =>
    refine .quiet (.refl s) ⟨fun guid' hg => .inl ?_, nofun⟩
    rw [hp]
    exact hg
  | settle applied =>
    simp only [submitCrash] at h
    split at h <;> cases h
    next guid hp =>
    cases applied with
    | false => exact .quiet (.refl s) (.of_none rfl nofun)
    | true => exact .committed (.inr hp) (.inr rfl)
  | deleteObject reply =>
    simp only [submitCrash] at h
    split at h <;> cases h
    next response hp =>
    refine .quiet (.after ⟨rfl, rfl, rfl, rfl, rfl⟩ _) ?_
    cases reply <;> exact .of_response rfl (by rw [hp]; rfl)
  | clearOrphan applied =>
    simp only [submitCrash] at h
    split at h <;> cases h
    next response hp =>
    exact .quiet (.after ⟨rfl, rfl, rfl, rfl, rfl⟩ _) (.of_response rfl (by rw [hp]; rfl))
  | recordOrphan applied =>
    simp only [submitCrash] at h
    split at h <;> cases h
    next response hp =>
    exact .quiet (.after (.recordOrphan s _) _) (.of_response rfl (by rw [hp]; rfl))
  | crash =>
    simp only [submitCrash, Option.ite_none_right_eq_some, Option.some.injEq] at h
    obtain ⟨-, rfl⟩ := h
    exact .quiet (.refl s) (.of_none rfl nofun)

/-! ## The registry survives every statement -/

theorem Registry.congr (h : Registry s) (he : u.events = s.events) (hj : u.jobs = s.jobs)
    (hs : u.submissions = s.submissions) : Registry u := by
  obtain ⟨now, objects, orphans, events, jobs, submissions, reconcilers⟩ := u
  cases he
  cases hj
  cases hs
  exact ⟨h.ids, h.event, h.indexed, h.free, h.holder, h.job, h.jobEvent, h.acknowledged⟩

theorem mem_advance (ht : s.submissions.find k = some t) {p : Phase} {t' : Submission} :
    t' ∈ (s.advance k p).submissions ↔
      (t' ∈ s.submissions ∧ t'.objectKey ≠ k) ∨ t' = { t with phase := p } := by
  simp only [State.advance, Table.mem_modify, ht, Option.some.injEq, exists_eq_left']

theorem find_advance_isSome {p : Phase} {k' : ObjectKey} {t' : Submission}
    (h : s.submissions.find k' = some t') :
    ∃ u, (s.advance k p).submissions.find k' = some u := by
  by_cases hk : k' = k
  · exact ⟨{ t' with phase := p }, by simp [State.advance, ← hk, h]⟩
  · exact ⟨t', by simp [State.advance, hk, h]⟩

theorem holds_advance {p : Phase} (hp : Justified s t p) {projectId : Uuid} {guid : Text}
    (h : Submission.holds { t with phase := p } projectId guid) :
    t.holds projectId guid ∨ (t.objectKey.projectId = projectId ∧ s.indexed projectId guid = 0 ∧
      ∀ t' ∈ s.submissions, ¬ t'.holds projectId guid) := by
  obtain ⟨rfl, hg⟩ := h
  obtain h | ⟨h, h'⟩ := hp.held guid hg
  · exact .inl ⟨rfl, h⟩
  · exact .inr ⟨rfl, h, h'⟩

theorem Registry.advance (h : Registry s) (ht : s.submissions.find t.objectKey = some t)
    {p : Phase} (hp : Justified s t p) : Registry (s.advance t.objectKey p) := by
  have hm : t ∈ s.submissions := (Table.find_eq_some.mp ht).1
  refine ⟨?_, ?_, h.indexed, ?_, ?_, h.job, h.jobEvent, ?_⟩
  · intro a ha b hb hid
    rcases (mem_advance ht).mp ha with ⟨ha, -⟩ | rfl <;>
      rcases (mem_advance ht).mp hb with ⟨hb, -⟩ | rfl
    · exact h.ids a ha b hb hid
    · exact h.ids a ha t hm hid
    · exact h.ids t hm b hb hid
    · rfl
  · intro e he
    obtain ⟨hid, t', ht'⟩ := h.event e he
    exact ⟨hid, find_advance_isSome ht'⟩
  · intro a ha projectId guid hold
    rcases (mem_advance ht).mp ha with ⟨ha, -⟩ | rfl
    · exact h.free a ha projectId guid hold
    · rcases holds_advance hp hold with hold | ⟨-, hfree, -⟩
      · exact h.free t hm projectId guid hold
      · exact hfree
  · intro a ha b hb projectId guid hold hold'
    rcases (mem_advance ht).mp ha with ⟨ha, -⟩ | rfl <;>
      rcases (mem_advance ht).mp hb with ⟨hb, -⟩ | rfl
    · exact h.holder a ha b hb projectId guid hold hold'
    · rcases holds_advance hp hold' with hold' | ⟨-, -, hnone⟩
      · exact h.holder a ha t hm projectId guid hold hold'
      · exact absurd hold (hnone a ha)
    · rcases holds_advance hp hold with hold | ⟨-, -, hnone⟩
      · exact h.holder t hm b hb projectId guid hold hold'
      · exact absurd hold' (hnone b hb)
    · rfl
  · intro a ha id deduplicated hr
    rcases (mem_advance ht).mp ha with ⟨ha, -⟩ | rfl
    · exact h.acknowledged a ha id deduplicated hr
    · rcases hp.acknowledges id deduplicated hr with hr | he
      · exact h.acknowledged t hm id deduplicated hr
      · exact he

/-- The committed event is new, its job is its only one, and nobody else holds its index
entry. -/
theorem Registry.commitEvent (h : Registry s) (ht : s.submissions.find t.objectKey = some t)
    (hfresh : ∀ e ∈ s.events, e.objectKey ≠ t.objectKey) {guid : Option Text}
    (hheld : t.phase.heldGuid = guid) {p : Phase}
    (hp : p = .answered (.accepted t.objectKey.eventId false) ∨
      p = .answered (.refused .commitUncertain)) :
    Registry ((s.commitEvent t.objectKey guid).advance t.objectKey p) := by
  have hm : t ∈ s.submissions := (Table.find_eq_some.mp ht).1
  have ht' : (s.commitEvent t.objectKey guid).submissions.find t.objectKey = some t := ht
  have hid : ∀ e ∈ s.events, e.id ≠ t.objectKey.eventId := by
    intro e he hid
    obtain ⟨hke, t', ht'⟩ := h.event e he
    obtain ⟨hm', hk'⟩ := Table.find_eq_some.mp ht'
    exact hfresh e he (hk' ▸ h.ids t' hm' t hm (by rw [hk', hke, hid]))
  have hindex : ∀ projectId g, (s.commitEvent t.objectKey guid).indexed projectId g =
      s.indexed projectId g +
        if t.objectKey.projectId = projectId ∧ guid = some g then 1 else 0 := by
    intro projectId g
    simp only [State.indexed, State.commitEvent, List.countP_cons]
    congr 1
    by_cases hg : t.objectKey.projectId = projectId ∧ guid = some g
    · rw [if_pos hg]
      exact if_pos (decide_eq_true hg)
    · rw [if_neg hg]
      exact if_neg fun h => hg (of_decide_eq_true h)
  have hother : ∀ a ∈ s.submissions, a.objectKey ≠ t.objectKey → ∀ projectId g,
      a.holds projectId g → ¬ (t.objectKey.projectId = projectId ∧ guid = some g) := by
    intro a ha hk projectId g hold ⟨hproject, hg⟩
    exact hk (h.holder a ha t hm projectId g hold ⟨hproject, hheld.trans hg⟩)
  have hjob : ∀ id, (s.commitEvent t.objectKey guid).eventJobs id =
      s.eventJobs id + if t.objectKey.eventId = id then 1 else 0 := by
    intro id
    simp [State.eventJobs, State.commitEvent, List.countP_cons]
  have hnone : p.heldGuid = none := by rcases hp with rfl | rfl <;> rfl
  have hnew : ∀ a, a = { t with phase := p } → ∀ projectId g, ¬ Submission.holds a projectId g := by
    rintro a rfl projectId g ⟨-, hg⟩
    rw [show Phase.heldGuid p = none from hnone] at hg
    cases hg
  refine ⟨?_, ?_, ?_, ?_, ?_, ?_, ?_, ?_⟩
  · intro a ha b hb hid
    rcases (mem_advance ht').mp ha with ⟨ha, -⟩ | rfl <;>
      rcases (mem_advance ht').mp hb with ⟨hb, -⟩ | rfl
    · exact h.ids a ha b hb hid
    · exact h.ids a ha t hm hid
    · exact h.ids t hm b hb hid
    · rfl
  · intro e he
    rcases List.mem_cons.mp he with rfl | he
    · exact ⟨rfl, find_advance_isSome ht'⟩
    · obtain ⟨hid, t', hf⟩ := h.event e he
      exact ⟨hid, find_advance_isSome (s := s.commitEvent t.objectKey guid) hf⟩
  · intro projectId g
    change (s.commitEvent t.objectKey guid).indexed projectId g ≤ 1
    rw [hindex]
    split_ifs with hg
    · rw [h.free t hm projectId g ⟨hg.1, hheld.trans hg.2⟩]
    · exact h.indexed projectId g
  · intro a ha projectId g hold
    rcases (mem_advance ht').mp ha with ⟨ha, hk⟩ | rfl
    · change (s.commitEvent t.objectKey guid).indexed projectId g = 0
      rw [hindex, if_neg (hother a ha hk projectId g hold), h.free a ha projectId g hold]
    · exact absurd hold (hnew _ rfl projectId g)
  · intro a ha b hb projectId g hold hold'
    rcases (mem_advance ht').mp ha with ⟨ha, -⟩ | rfl
    · rcases (mem_advance ht').mp hb with ⟨hb, -⟩ | rfl
      · exact h.holder a ha b hb projectId g hold hold'
      · exact absurd hold' (hnew _ rfl projectId g)
    · exact absurd hold (hnew _ rfl projectId g)
  · intro e he
    change (s.commitEvent t.objectKey guid).eventJobs e.id = 1
    rw [hjob]
    rcases List.mem_cons.mp he with rfl | he
    · have hzero : s.eventJobs t.objectKey.eventId = 0 := by
        refine List.countP_eq_zero.mpr fun j hj hje => ?_
        obtain ⟨e, he, hej⟩ := h.jobEvent j hj
        exact hid e he (hej.trans (of_decide_eq_true hje).1)
      rw [hzero, if_pos rfl]
    · rw [h.job e he, if_neg (hid e he).symm]
  · intro j hj
    rcases List.mem_cons.mp hj with rfl | hj
    · exact ⟨_, List.mem_cons_self, rfl⟩
    · obtain ⟨e, he, hje⟩ := h.jobEvent j hj
      exact ⟨e, List.mem_cons_of_mem _ he, hje⟩
  · intro a ha id deduplicated hr
    rcases (mem_advance ht').mp ha with ⟨ha, -⟩ | rfl
    · obtain ⟨e, he, hid⟩ := h.acknowledged a ha id deduplicated hr
      exact ⟨e, List.mem_cons_of_mem _ he, hid⟩
    · rcases hp with rfl | rfl <;> cases hr
      exact ⟨_, List.mem_cons_self, rfl, rfl⟩

theorem Registry.submitCrash (h : Registry s) (ht : s.submissions.find t.objectKey = some t)
    (hfresh : t.phase.mayCommit = true → ∀ e ∈ s.events, e.objectKey ≠ t.objectKey)
    (ha : Advanced s t s') : Registry s' := by
  cases ha with
  | quiet hu hp =>
    next u p =>
    have hu' : Registry u := h.congr hu.events hu.jobs hu.submissions
    refine hu'.advance (by rw [hu.submissions]; exact ht) ⟨fun guid hg => ?_, fun id d hr => ?_⟩
    · simpa only [State.indexed, hu.events, hu.submissions] using hp.held guid hg
    · simpa only [hu.events] using hp.acknowledges id d hr
  | committed hphase hp =>
    next guid p =>
    have hheld : t.phase.heldGuid = guid ∧ t.phase.mayCommit = true := by
      rcases hphase with h | h <;> rw [h] <;> exact ⟨rfl, rfl⟩
    exact h.commitEvent ht (hfresh hheld.2) hheld.1 hp

theorem Registry.submit (h : Registry s) {scope : KeyScope} {eventId : Uuid}
    (hs : s.submit scope eventId = some s') : Registry s' := by
  unfold State.submit at hs
  split_ifs at hs with hfresh
  cases hs
  have hnew : ∀ t ∈ s.submissions, t.objectKey.eventId ≠ eventId := by
    simpa [Table.mem_rows] using hfresh
  have hnone : s.submissions.find ⟨scope.organizationId, scope.projectId, eventId⟩ = none :=
    Table.find_eq_none.mpr fun t ht hk => hnew t ht (by rw [hk])
  have hmem : ∀ a, a ∈ s.submissions.insert
      ⟨⟨scope.organizationId, scope.projectId, eventId⟩, s.now, .registering⟩ →
      a.phase = .registering ∧ a.objectKey.eventId = eventId ∧
        a.objectKey = ⟨scope.organizationId, scope.projectId, eventId⟩ ∨ a ∈ s.submissions := by
    intro a ha
    rcases (Table.mem_insert hnone).mp ha with rfl | ha
    · exact .inl ⟨rfl, rfl, rfl⟩
    · exact .inr ha
  refine ⟨?_, ?_, h.indexed, ?_, ?_, h.job, h.jobEvent, ?_⟩
  · intro a ha b hb hid
    rcases hmem a ha with ⟨-, ha, hka⟩ | ha <;> rcases hmem b hb with ⟨-, hb, hkb⟩ | hb
    · rw [hka, hkb]
    · exact absurd (hid ▸ ha) (hnew b hb)
    · exact absurd (hid.trans hb) (hnew a ha)
    · exact h.ids a ha b hb hid
  · intro e he
    obtain ⟨hid, t, ht⟩ := h.event e he
    obtain ⟨hm, hk⟩ := Table.find_eq_some.mp ht
    exact ⟨hid, t, Table.find_eq_some.mpr ⟨(Table.mem_insert hnone).mpr (.inr hm), hk⟩⟩
  · intro a ha projectId guid hold
    rcases hmem a ha with ⟨hp, -⟩ | ha
    · simp [Submission.holds, hp, Phase.heldGuid] at hold
    · exact h.free a ha projectId guid hold
  · intro a ha b hb projectId guid hold hold'
    rcases hmem a ha with ⟨hp, -⟩ | ha
    · simp [Submission.holds, hp, Phase.heldGuid] at hold
    · rcases hmem b hb with ⟨hp, -⟩ | hb
      · simp [Submission.holds, hp, Phase.heldGuid] at hold'
      · exact h.holder a ha b hb projectId guid hold hold'
  · intro a ha id deduplicated hr
    rcases hmem a ha with ⟨hp, -⟩ | ha
    · rw [hp] at hr
      cases hr
    · exact h.acknowledged a ha id deduplicated hr

end
end FaultLane.CrashIngest
