import FaultLane.UsageFades

set_option autoImplicit false

/-!
# The recent events of an issue and release

Along the runs whose publications move a recent event only to an issue and release with
room, at most three events of an issue and release are kept as recent ones, and an event
that is aged out leaves three newer ones behind.
-/
namespace FaultLane.Usage
open KeyedTable JobQueue TransitionSystem

/-- The retention class is recent and the raw object is stored. -/
def Project.recentlyKept (p : Project) (x : CrashEvent) : Prop :=
  x.retentionClass = .recent ∧ p.storedObject x.objectId

instance (p : Project) : DecidablePred p.recentlyKept :=
  fun _ => inferInstanceAs (Decidable (_ ∧ _))

/-- The recent events of an issue and release whose raw state is stored. -/
def Project.recentSample (p : Project) (issueId : Uuid) (releaseId : Option Uuid) :
    List CrashEvent :=
  p.events.rows.filter fun x => x.grouping.issueId = some issueId ∧
    x.grouping.releaseId = releaseId ∧ p.recentlyKept x

/-- A publication keeps the issue and release of a recent event or finds room at the new ones. -/
def MovesToRoom (s : State) : Action → Prop
  | .publish eventId g _ _ _ _ _ =>
    ∀ e ∈ s.project.events.find eventId, s.project.recentlyKept e →
      (g.issueId = e.grouping.issueId ∧ g.releaseId = e.grouping.releaseId) ∨
        ∀ issueId ∈ g.issueId, (s.project.recentSample issueId g.releaseId).length < 3
  | _ => True

instance (s : State) : DecidablePred (MovesToRoom s) := fun action => by
  induction action using Action.casesOn <;> unfold MovesToRoom <;> infer_instance

/-! ## The order of the events -/

section order

theorem lex_trans {a b c i j k : Nat} (h : a < b ∨ (a = b ∧ i < j)) (h' : b < c ∨ (b = c ∧ j < k)) :
    a < c ∨ (a = c ∧ i < k) := by omega

theorem lex_negTrans {a b c i j k : Nat} (h : ¬ (a < b ∨ (a = b ∧ i < j)))
    (h' : ¬ (b < c ∨ (b = c ∧ j < k))) : ¬ (a < c ∨ (a = c ∧ i < k)) := by omega

theorem lex_total {a b i j : Nat} (h : i ≠ j) (h' : ¬ (a < b ∨ (a = b ∧ i < j))) :
    b < a ∨ (b = a ∧ j < i) := by omega

theorem CrashEvent.before_trans {e f g : CrashEvent} (h : e.before f) (h' : f.before g) :
    e.before g := lex_trans h h'

theorem CrashEvent.before_of_not {e f : CrashEvent} (hid : e.id ≠ f.id) (h : ¬ e.before f) :
    f.before e := lex_total hid h

theorem CrashEvent.not_before_self (e : CrashEvent) : ¬ e.before e := by
  rintro (hlt | ⟨-, hid⟩)
  · exact Nat.lt_irrefl _ hlt
  · exact Nat.lt_irrefl _ hid

/-- `ORDER BY received_at DESC, id DESC`. -/
abbrev CrashEvent.newest (e f : CrashEvent) : Prop := ¬ e.before f

instance : Std.Total CrashEvent.newest where
  total e f := by
    by_cases h : e.before f
    · exact .inr fun h' => e.not_before_self (CrashEvent.before_trans h h')
    · exact .inl h

instance : IsTrans CrashEvent CrashEvent.newest where
  trans _ _ _ h h' := lex_negTrans h h'

/-- Rows with different identifiers that are all named by a list are no more than it has. -/
theorem length_le_of_ids {l : List CrashEvent} (hl : (l.map CrashEvent.id).Nodup)
    (ids : List Uuid) (h : ∀ x ∈ l, x.id ∈ ids) : l.length ≤ ids.length := by
  have hsub : l.map CrashEvent.id ⊆ ids := by
    intro id hid
    obtain ⟨x, hx, rfl⟩ := List.mem_map.mp hid
    exact h x hx
  have hle := (List.subperm_of_subset hl hsub).length_le
  rwa [List.length_map] at hle

end order

/-! ## The sample of an issue and release -/

section sample
variable {p p' : Project} {issueId : Uuid} {releaseId : Option Uuid}

/-- At most three events of an issue and release are kept as recent ones. -/
def Project.Bounded (p : Project) : Prop :=
  ∀ issueId releaseId, (p.recentSample issueId releaseId).length ≤ 3

theorem mem_recentSample {x : CrashEvent} : x ∈ p.recentSample issueId releaseId ↔
    x ∈ p.events ∧ x.grouping.issueId = some issueId ∧ x.grouping.releaseId = releaseId ∧
      p.recentlyKept x := by
  rw [Project.recentSample, List.mem_filter, decide_eq_true_iff, Table.mem_rows]

theorem nodup_recentSample : ((p.recentSample issueId releaseId).map CrashEvent.id).Nodup :=
  p.events.unique.sublist (List.filter_sublist.map _)

theorem length_recentSample_le (m : List CrashEvent)
    (h : ∀ x ∈ p.recentSample issueId releaseId, ∃ y ∈ m, y.id = x.id) :
    (p.recentSample issueId releaseId).length ≤ m.length := by
  have hm : (m.map CrashEvent.id).length = m.length := List.length_map _
  rw [← hm]
  refine length_le_of_ids nodup_recentSample _ fun x hx => ?_
  obtain ⟨y, hy, hid⟩ := h x hx
  exact List.mem_map.mpr ⟨y, hy, hid⟩

theorem mem_recentSample_fade (hf : p.Fades p') {x : CrashEvent}
    (hx : x ∈ p'.recentSample issueId releaseId) : x ∈ p.recentSample issueId releaseId := by
  obtain ⟨hmem, hissue, hrelease, hrecent, hstored⟩ := mem_recentSample.mp hx
  rcases hf.rows x hmem with hold | hquiet
  · exact mem_recentSample.mpr
      ⟨hold, hissue, hrelease, hrecent, hf.stored x hmem hrecent hstored⟩
  · exact absurd hrecent hquiet.1

theorem Project.Bounded.mono (h : p.Bounded) (hsub : ∀ issueId releaseId,
    ∀ x ∈ p'.recentSample issueId releaseId, x ∈ p.recentSample issueId releaseId) :
    p'.Bounded := by
  intro issueId releaseId
  have hle := length_recentSample_le (p.recentSample issueId releaseId) fun x hx =>
    ⟨x, hsub issueId releaseId x hx, rfl⟩
  exact hle.trans (h issueId releaseId)

theorem Project.Bounded.fade (h : p.Bounded) (hf : p.Fades p') : p'.Bounded :=
  h.mono fun _ _ _ hx => mem_recentSample_fade hf hx

theorem recentEvents_eq {e : CrashEvent} (h : e.grouping.issueId = some issueId) :
    p.recentEvents e = ((p.recentSample issueId e.grouping.releaseId).insertionSort
      CrashEvent.newest).take 3 := by
  unfold Project.recentEvents Project.recentSample
  rw [h]
  rfl

theorem length_recentEvents {e : CrashEvent} (h : e.grouping.issueId = some issueId) :
    (p.recentEvents e).length = min 3 (p.recentSample issueId e.grouping.releaseId).length := by
  rw [recentEvents_eq h, List.length_take, List.length_insertionSort]

theorem mem_recentEvents {e x : CrashEvent} (h : e.grouping.issueId = some issueId)
    (hx : x ∈ p.recentEvents e) : x ∈ p.recentSample issueId e.grouping.releaseId := by
  rw [recentEvents_eq h] at hx
  exact (List.mem_insertionSort _).mp (List.mem_of_mem_take hx)

theorem nodup_recentEvents {e : CrashEvent} (h : e.grouping.issueId = some issueId) :
    ((p.recentEvents e).map CrashEvent.id).Nodup := by
  have hsorted := ((List.perm_insertionSort CrashEvent.newest
    (p.recentSample issueId e.grouping.releaseId)).map CrashEvent.id).nodup_iff.mpr
    nodup_recentSample
  rw [recentEvents_eq h]
  exact hsorted.sublist ((List.take_sublist 3 _).map _)

theorem pairwise_recentEvents {e : CrashEvent} (h : e.grouping.issueId = some issueId) :
    (p.recentEvents e).Pairwise CrashEvent.newest := by
  rw [recentEvents_eq h]
  exact (List.pairwise_insertionSort _ _).sublist (List.take_sublist 3 _)

/-- The last of the recent events is older than the others. -/
theorem oldest_before {e oldest : CrashEvent} (h : e.grouping.issueId = some issueId)
    (hlast : (p.recentEvents e).getLast? = some oldest) :
    p.recentEvents e = (p.recentEvents e).dropLast ++ [oldest] ∧
      ∀ x ∈ (p.recentEvents e).dropLast, x.id ≠ oldest.id ∧ oldest.before x := by
  have hsplit := (List.dropLast_append_getLast? oldest hlast).symm
  refine ⟨hsplit, fun x hx => ?_⟩
  have hsorted := pairwise_recentEvents (p := p) h
  have hnodup := nodup_recentEvents (p := p) h
  rw [hsplit] at hsorted hnodup
  have hne : x.id ≠ oldest.id := by
    intro heq
    rw [List.map_append] at hnodup
    exact List.disjoint_of_nodup_append hnodup (List.mem_map_of_mem hx)
      (List.mem_singleton.mpr heq)
  have hnot := (List.pairwise_append.mp hsorted).2.2 x hx oldest List.mem_cons_self
  exact ⟨hne, CrashEvent.before_of_not hne hnot⟩

/-! ## The decision on an event -/

/-- The sample of a pending event's issue and release is full, and this is its oldest event. -/
structure Project.Full (p : Project) (e oldest : CrashEvent) (issueId : Uuid) : Prop where
  issue : e.grouping.issueId = some issueId
  pending : e.retentionClass = .pending
  stored : p.storedObject e.objectId
  full : (p.recentEvents e).length = 3
  last : (p.recentEvents e).getLast? = some oldest

/-- The event neither represents its issue nor is it the first one of its variant. -/
structure Project.Ordinary (p : Project) (e : CrashEvent) (issue : Option IssueRow) : Prop where
  counted : ∀ row ∈ issue, 1 < row.eventCount
  represented : ∀ row ∈ issue, row.representative ≠ some e.id
  variant : ¬ p.variantFirst e

/-- The decisions that `retention` takes. -/
inductive Project.Samples (p : Project) (e : CrashEvent) (issue : Option IssueRow) :
    Retention → Prop where
  | unchanged (h : ¬ p.storedObject e.objectId ∨ e.retentionClass ≠ .pending) :
      Samples p e issue .unchanged
  | keep (c : RetentionClass) (hpending : e.retentionClass = .pending) (h : c.settled) :
      Samples p e issue (.keep c)
  | recent (issueId : Uuid) (hissue : e.grouping.issueId = some issueId)
      (hpending : e.retentionClass = .pending) (ho : p.Ordinary e issue)
      (hroom : (p.recentSample issueId e.grouping.releaseId).length < 3) :
      Samples p e issue (.keep .recent)
  | replace (issueId : Uuid) (oldest : CrashEvent) (h : p.Full e oldest issueId)
      (ho : p.Ordinary e issue) (hbefore : oldest.before e) :
      Samples p e issue (.age oldest.id oldest.objectId true)
  | late (issueId : Uuid) (oldest : CrashEvent) (h : p.Full e oldest issueId)
      (ho : p.Ordinary e issue) (hbefore : ¬ oldest.before e) :
      Samples p e issue (.age e.id e.objectId false)

theorem sampleIssueEvent_samples {e : CrashEvent} (hissue : e.grouping.issueId = some issueId)
    (hpending : e.retentionClass = .pending) (hstored : p.storedObject e.objectId)
    {issue : Option IssueRow} {r : Retention} (h : p.sampleIssueEvent e issue = some r) :
    p.Samples e issue r := by
  obtain ⟨row, hrow, h⟩ := Option.bind_eq_some_iff.mp h
  have hordinary (hcount : ¬ row.eventCount ≤ 1) (hrepresentative : row.representative ≠ some e.id)
      (hvariant : ¬ p.variantFirst e) : p.Ordinary e issue := by
    subst hrow
    refine ⟨fun row' hr => ?_, fun row' hr => ?_, hvariant⟩
    · obtain rfl := Option.some.inj hr
      exact Nat.lt_of_not_le hcount
    · obtain rfl := Option.some.inj hr
      exact hrepresentative
  split_ifs at h with hnovel hrepresentative hvariant hroom
  · cases h
    exact .keep .novel hpending (.inr (.inl rfl))
  · cases h
    exact .keep .representative hpending (.inr (.inr (.inl rfl)))
  · cases h
    exact .keep .variant hpending (.inr (.inr (.inr rfl)))
  · cases h
    rw [length_recentEvents hissue] at hroom
    exact .recent issueId hissue hpending (hordinary hnovel hrepresentative hvariant) (by omega)
  · obtain ⟨oldest, hlast, h⟩ := Option.bind_eq_some_iff.mp h
    have hlength := length_recentEvents (p := p) hissue
    have hfull : p.Full e oldest issueId := ⟨hissue, hpending, hstored, by omega, hlast⟩
    split_ifs at h with hbefore
    · cases h
      exact .replace issueId oldest hfull (hordinary hnovel hrepresentative hvariant) hbefore
    · cases h
      exact .late issueId oldest hfull (hordinary hnovel hrepresentative hvariant) hbefore

theorem retention_samples {e : CrashEvent} {enforce v2 : Bool} {symbolBytes : Nat}
    {issue : Option IssueRow} {r : Retention}
    (h : p.retention e enforce v2 symbolBytes issue = some r) : p.Samples e issue r := by
  unfold Project.retention at h
  split at h
  · next hguard =>
    cases h
    exact .unchanged hguard
  · next hguard =>
    obtain ⟨hstored, hpending⟩ := not_or.mp hguard
    have hclass : e.retentionClass = .pending := not_not.mp hpending
    split at h
    · cases h
      exact .keep .standard hclass (.inl rfl)
    · split at h
      · cases h
      · cases h
        exact .keep .standard hclass (.inl rfl)
      · split at h
        · next hsome =>
          obtain ⟨issueId, hissue⟩ := Option.isSome_iff_exists.mp hsome
          exact sampleIssueEvent_samples hissue hclass (not_not.mp hstored) h
        · cases h
          exact .keep .novel hclass (.inr (.inl rfl))

/-! ## The event that is aged out -/

/-- The reservoir keeps the event, or its object starts to be deleted. -/
theorem ageOut_eq {aged object : Uuid} (hs : p.storedObject object) (reservoir : Bool) (now : Nat)
    (hq : p' = if reservoir then p.setRetentionClass aged .reservoir
      else p.enqueueRawDeletion aged object .deleting now) :
    ∃ c, (c = .deleting ∨ c = .reservoir) ∧ p'.events = (p.setRetentionClass aged c).events ∧
      (∀ o, p'.storedObject o → p.storedObject o) ∧
      ∀ o, c = .reservoir ∨ o ≠ object → p.storedObject o → p'.storedObject o := by
  cases reservoir with
  | true =>
    subst hq
    exact ⟨.reservoir, .inr rfl, rfl, fun _ h => h, fun _ _ h => h⟩
  | false =>
    obtain ⟨o, ho, hstored⟩ := hs
    obtain ⟨hmem, hid⟩ := Table.find_eq_some.mp ho
    let o' : RawObject := { o with lifecycle := .deleting }
    have hevents : p'.events = (p.setRetentionClass aged .deleting).events := by
      rw [hq, if_neg (by decide), Project.enqueueRawDeletion, ho]
      dsimp only
      rw [if_pos hstored]
      rfl
    have hobjects : ∀ x, p'.storedObject x ↔ (p.setObject o').storedObject x := by
      intro x
      rw [hq, if_neg (by decide), Project.enqueueRawDeletion, ho]
      dsimp only
      rw [if_pos hstored]
      exact Iff.rfl
    have hkey : o'.id = o.id := rfl
    refine ⟨.deleting, .inl rfl, hevents, fun x hx => ?_, fun x hne hx => ?_⟩
    · rcases storedObject_setObject hmem hkey ((hobjects x).mp hx) with ⟨-, h⟩ | ⟨-, h⟩
      · exact h
      · cases h
    · obtain ⟨y, hy, hys⟩ := hx
      obtain ⟨hymem, hyid⟩ := Table.find_eq_some.mp hy
      refine (hobjects x).mpr ⟨y, Table.find_eq_some.mpr ⟨?_, hyid⟩, hys⟩
      have hother : x ≠ object := hne.resolve_left nofun
      refine (mem_setObject hmem hkey).mpr (.inl ⟨hymem, fun heq => hother ?_⟩)
      exact hyid.symm.trans (heq.trans hid)

/-- What the aging of an event makes of the project. -/
structure Project.AgesOut (p q : Project) (aged : CrashEvent) (c : RetentionClass) : Prop where
  mem : aged ∈ p.events
  given : c = .deleting ∨ c = .reservoir
  events : q.events = (p.setRetentionClass aged.id c).events
  stored : ∀ o, q.storedObject o → p.storedObject o
  others : ∀ o, c = .reservoir ∨ o ≠ aged.objectId → p.storedObject o → q.storedObject o

section ageOut
variable {q : Project} {aged : CrashEvent} {c : RetentionClass}

theorem Project.AgesOut.mem_events (h : p.AgesOut q aged c) {x : CrashEvent} :
    x ∈ q.events ↔ (x ∈ p.events ∧ x.id ≠ aged.id) ∨ x = { aged with retentionClass := c } := by
  have hfind : p.events.find aged.id = some aged := Table.find_eq_some.mpr ⟨h.mem, rfl⟩
  rw [h.events, mem_setRetentionClass, hfind]
  simp only [Option.some.injEq, exists_eq_left']

theorem Project.AgesOut.mem_recentSample (h : p.AgesOut q aged c) {x : CrashEvent}
    (hx : x ∈ q.recentSample issueId releaseId) :
    x ∈ p.recentSample issueId releaseId ∧ x.id ≠ aged.id := by
  obtain ⟨hmem, hissue, hrelease, hrecent, hstored⟩ := Usage.mem_recentSample.mp hx
  rcases h.mem_events.mp hmem with ⟨hmem, hne⟩ | rfl
  · exact ⟨Usage.mem_recentSample.mpr ⟨hmem, hissue, hrelease, hrecent, h.stored _ hstored⟩, hne⟩
  · rcases h.given with rfl | rfl <;> cases hrecent

theorem Project.AgesOut.keeps_sample (h : p.AgesOut q aged c) (hone : p.OneObject)
    {x : CrashEvent} (hx : x ∈ p.recentSample issueId releaseId) (hne : x.id ≠ aged.id) :
    x ∈ q.recentSample issueId releaseId := by
  obtain ⟨hmem, hissue, hrelease, hrecent, hstored⟩ := Usage.mem_recentSample.mp hx
  refine Usage.mem_recentSample.mpr
    ⟨h.mem_events.mpr (.inl ⟨hmem, hne⟩), hissue, hrelease, hrecent, h.others _ (.inr ?_) hstored⟩
  exact fun heq => hne (hone x hmem aged h.mem heq)

theorem Project.AgesOut.bounded (h : p.AgesOut q aged c) (hb : p.Bounded) : q.Bounded :=
  hb.mono fun _ _ _ hx => (h.mem_recentSample hx).1

/-- An aged event of the sample leaves room. -/
theorem Project.AgesOut.room (h : p.AgesOut q aged c) (hb : p.Bounded)
    (haged : aged ∈ p.recentSample issueId releaseId) :
    (q.recentSample issueId releaseId).length < 3 := by
  have hnew : aged.id ∉ (q.recentSample issueId releaseId).map CrashEvent.id := by
    intro hmem
    obtain ⟨x, hx, hid⟩ := List.mem_map.mp hmem
    exact (h.mem_recentSample hx).2 hid
  have hnodup : ((aged :: q.recentSample issueId releaseId).map CrashEvent.id).Nodup :=
    List.nodup_cons.mpr ⟨hnew, nodup_recentSample⟩
  have hle := length_le_of_ids hnodup ((p.recentSample issueId releaseId).map CrashEvent.id)
    fun x hx => by
      rcases List.mem_cons.mp hx with rfl | hx
      · exact List.mem_map_of_mem haged
      · exact List.mem_map_of_mem (h.mem_recentSample hx).1
  rw [List.length_map, List.length_cons] at hle
  have hthree := hb issueId releaseId
  omega

end ageOut

/-! ## The event that becomes a recent one -/

theorem mem_recentSample_setRecent {e x : CrashEvent} (he : e ∈ p.events)
    (hx : x ∈ (p.setRetentionClass e.id .recent).recentSample issueId releaseId) :
    x ∈ p.recentSample issueId releaseId ∨
      (x.id = e.id ∧ e.grouping.issueId = some issueId ∧ e.grouping.releaseId = releaseId) := by
  obtain ⟨hmem, hissue, hrelease, hkept⟩ := mem_recentSample.mp hx
  rcases mem_setRetentionClass.mp hmem with ⟨hmem, -⟩ | ⟨e', he', rfl⟩
  · exact .inl (mem_recentSample.mpr ⟨hmem, hissue, hrelease, hkept⟩)
  · obtain ⟨he', hid⟩ := Table.find_eq_some.mp he'
    obtain rfl := Table.eq_of_key_eq he' he hid
    exact .inr ⟨rfl, hissue, hrelease⟩

theorem Project.Bounded.setRecent (h : p.Bounded) {e : CrashEvent} (he : e ∈ p.events)
    (hissue : e.grouping.issueId = some issueId)
    (hroom : (p.recentSample issueId e.grouping.releaseId).length < 3) :
    (p.setRetentionClass e.id .recent).Bounded := by
  intro issueId' releaseId'
  by_cases hkey : issueId' = issueId ∧ releaseId' = e.grouping.releaseId
  · obtain ⟨rfl, rfl⟩ := hkey
    have hle := length_recentSample_le (p := p.setRetentionClass e.id .recent)
      (e :: p.recentSample issueId' e.grouping.releaseId) fun x hx => by
        rcases mem_recentSample_setRecent he hx with hx | ⟨hid, -⟩
        · exact ⟨x, List.mem_cons_of_mem e hx, rfl⟩
        · exact ⟨e, List.mem_cons_self, hid.symm⟩
    rw [List.length_cons] at hle
    omega
  · have hle := length_recentSample_le (p := p.setRetentionClass e.id .recent)
      (p.recentSample issueId' releaseId') fun x hx => by
        rcases mem_recentSample_setRecent he hx with hx | ⟨-, hissue', hrelease⟩
        · exact ⟨x, hx, rfl⟩
        · rw [hissue] at hissue'
          exact absurd ⟨(Option.some.inj hissue').symm, hrelease.symm⟩ hkey
    exact hle.trans (h issueId' releaseId')

theorem Project.Full.oldest_mem {e oldest : CrashEvent} (h : p.Full e oldest issueId) :
    oldest ∈ p.recentSample issueId e.grouping.releaseId :=
  mem_recentEvents h.issue (List.mem_of_getLast? h.last)

theorem Project.Full.oldest_ne {e oldest x : CrashEvent} (h : p.Full e oldest issueId)
    (he : e ∈ p.events) (hx : x ∈ p.recentSample issueId releaseId) : x.id ≠ e.id := by
  obtain ⟨hmem, -, -, hrecent, -⟩ := mem_recentSample.mp hx
  intro hid
  obtain rfl := Table.eq_of_key_eq hmem he hid
  rw [h.pending] at hrecent
  cases hrecent

theorem bounded_retain (h : p.Bounded) {e : CrashEvent} (he : e ∈ p.events) {r : Retention}
    {issue : Option IssueRow} (hr : p.Samples e issue r) (reservoir : Bool) (now : Nat) :
    (p.retain e.id r reservoir now).Bounded := by
  cases hr with
  | unchanged _ => exact h
  | keep c hpending hc => exact h.fade (fades_setRetentionClass e.id hc.quiet)
  | recent issueId hissue hpending hordinary hroom => exact h.setRecent he hissue hroom
  | replace issueId oldest hfull hordinary hbefore =>
    obtain ⟨hmem, -, -, -, hstored⟩ := mem_recentSample.mp hfull.oldest_mem
    obtain ⟨c, hc, hevents, hs, ho⟩ := ageOut_eq hstored reservoir now rfl
    have hage : p.AgesOut _ oldest c := ⟨hmem, hc, hevents, hs, ho⟩
    have hstay := hage.mem_events.mpr (.inl ⟨he, (hfull.oldest_ne he hfull.oldest_mem).symm⟩)
    exact (hage.bounded h).setRecent hstay hfull.issue (hage.room h hfull.oldest_mem)
  | late issueId oldest hfull hordinary hbefore =>
    obtain ⟨c, hc, hevents, hs, ho⟩ := ageOut_eq hfull.stored reservoir now rfl
    have hage : p.AgesOut _ e c := ⟨he, hc, hevents, hs, ho⟩
    exact hage.bounded h

/-! ## The events that are newer than an aged one -/

/-- Three recent events of its issue and release are newer. -/
def Project.ThreeNewer (p : Project) (x : CrashEvent) : Prop :=
  ∃ issueId, x.grouping.issueId = some issueId ∧
    3 ≤ ((p.recentSample issueId x.grouping.releaseId).filter (x.before ·)).length

theorem threeNewer_of_list {x : CrashEvent} (hissue : x.grouping.issueId = some issueId)
    {l : List CrashEvent} (hl : (l.map CrashEvent.id).Nodup) (hlength : l.length = 3)
    (h : ∀ y ∈ l, y ∈ p.recentSample issueId x.grouping.releaseId ∧ x.before y) :
    p.ThreeNewer x := by
  refine ⟨issueId, hissue, ?_⟩
  rw [← hlength]
  have hle := length_le_of_ids hl (((p.recentSample issueId x.grouping.releaseId).filter
    (x.before ·)).map CrashEvent.id) fun y hy => by
      exact List.mem_map_of_mem (List.mem_filter.mpr ⟨(h y hy).1, decide_eq_true (h y hy).2⟩)
  rwa [List.length_map] at hle

/-- An event that changes its class under one assignment. -/
theorem class_setRetentionClass {eventId : Uuid} {c : RetentionClass} {x x' : CrashEvent}
    (hx : x ∈ p.events) (hx' : x' ∈ (p.setRetentionClass eventId c).events) (hid : x'.id = x.id)
    (hchanged : x'.retentionClass ≠ x.retentionClass) : x'.retentionClass = c := by
  rcases mem_setRetentionClass.mp hx' with ⟨hmem, -⟩ | ⟨e, -, rfl⟩
  · exact absurd (Table.eq_of_key_eq hmem hx hid ▸ rfl) hchanged
  · rfl

theorem threeNewer_replace (hone : p.OneObject) {q : Project} {e oldest : CrashEvent}
    {c : RetentionClass} (he : e ∈ p.events) (hfull : p.Full e oldest issueId)
    (hbefore : oldest.before e) (hage : p.AgesOut q oldest c) :
    (q.setRetentionClass e.id .recent).ThreeNewer { oldest with retentionClass := c } := by
  obtain ⟨-, hissue, hrelease, -⟩ := mem_recentSample.mp hfull.oldest_mem
  obtain ⟨hsplit, hnewer⟩ := oldest_before hfull.issue hfull.last
  have hin : ∀ y ∈ (p.recentEvents e).dropLast,
      y ∈ p.recentSample issueId e.grouping.releaseId := fun y hy =>
    mem_recentEvents hfull.issue ((List.dropLast_subset _) hy)
  let e' : CrashEvent := { e with retentionClass := .recent }
  have hstay : e ∈ q.events :=
    hage.mem_events.mpr (.inl ⟨he, (hfull.oldest_ne he hfull.oldest_mem).symm⟩)
  have hkept : q.storedObject e.objectId := hage.others _ (.inr fun heq =>
    hfull.oldest_ne he hfull.oldest_mem (hone e he oldest hage.mem heq).symm) hfull.stored
  have hnodup := nodup_recentEvents (p := p) hfull.issue
  have hlength : (p.recentEvents e).dropLast.length = 2 := by
    rw [List.length_dropLast, hfull.full]
  refine threeNewer_of_list (l := e' :: (p.recentEvents e).dropLast) hissue ?_ ?_ fun y hy => ?_
  · refine List.nodup_cons.mpr ⟨fun hmem => ?_, hnodup.sublist ((List.dropLast_sublist _).map _)⟩
    obtain ⟨y, hy, hid⟩ := List.mem_map.mp hmem
    exact hfull.oldest_ne he (hin y hy) hid
  · rw [List.length_cons, hlength]
  · change y ∈ Project.recentSample _ issueId oldest.grouping.releaseId ∧ oldest.before y
    rw [hrelease]
    rcases List.mem_cons.mp hy with rfl | hy
    · refine ⟨mem_recentSample.mpr ⟨?_, hfull.issue, rfl, rfl, hkept⟩, hbefore⟩
      exact mem_setRetentionClass.mpr (.inr ⟨e, Table.find_eq_some.mpr ⟨hstay, rfl⟩, rfl⟩)
    · obtain ⟨hmem, hkey⟩ := mem_recentSample.mp
        (hage.keeps_sample hone (hin y hy) (hnewer y hy).1)
      refine ⟨mem_recentSample.mpr ⟨?_, hkey⟩, (hnewer y hy).2⟩
      exact mem_setRetentionClass.mpr (.inl ⟨hmem, hfull.oldest_ne he (hin y hy)⟩)

theorem threeNewer_late (hone : p.OneObject) {q : Project} {e oldest : CrashEvent}
    {c : RetentionClass} (he : e ∈ p.events) (hfull : p.Full e oldest issueId)
    (hbefore : ¬ oldest.before e) (hage : p.AgesOut q e c) :
    q.ThreeNewer { e with retentionClass := c } := by
  obtain ⟨hsplit, hnewer⟩ := oldest_before hfull.issue hfull.last
  have holdest : e.before oldest :=
    CrashEvent.before_of_not (hfull.oldest_ne he hfull.oldest_mem) hbefore
  refine threeNewer_of_list hfull.issue (nodup_recentEvents (p := p) hfull.issue) hfull.full
    fun y hy => ?_
  have hin := mem_recentEvents hfull.issue hy
  refine ⟨hage.keeps_sample hone hin (hfull.oldest_ne he hin), ?_⟩
  rw [hsplit] at hy
  rcases List.mem_append.mp hy with hy | hy
  · exact CrashEvent.before_trans holdest (hnewer y hy).2
  · rw [List.mem_singleton.mp hy]
    exact holdest

theorem threeNewer_retain (hone : p.OneObject) {e : CrashEvent} (he : e ∈ p.events)
    {issue : Option IssueRow} {r : Retention} (hr : p.Samples e issue r) {reservoir : Bool}
    {now : Nat} {x x' : CrashEvent}
    (hx : x ∈ p.events) (hx' : x' ∈ (p.retain e.id r reservoir now).events) (hid : x'.id = x.id)
    (hchanged : x'.retentionClass ≠ x.retentionClass)
    (hc : x'.retentionClass = .deleting ∨ x'.retentionClass = .reservoir) :
    (p.retain e.id r reservoir now).ThreeNewer x' := by
  cases hr with
  | unchanged _ => exact absurd (Table.eq_of_key_eq hx' hx hid ▸ rfl) hchanged
  | keep c hpending hsettled =>
    have hquiet := hsettled.quiet
    have hclass := class_setRetentionClass hx hx' hid hchanged
    rcases hc with hc | hc
    · exact absurd (hclass.symm.trans hc) hquiet.2.1
    · exact absurd (hclass.symm.trans hc) hquiet.2.2
  | recent issueId hissue hpending hordinary hroom =>
    have hclass := class_setRetentionClass hx hx' hid hchanged
    rw [hclass] at hc
    rcases hc with hc | hc <;> cases hc
  | replace issueId oldest hfull hordinary hbefore =>
    obtain ⟨hmem, -, -, -, hstored⟩ := mem_recentSample.mp hfull.oldest_mem
    obtain ⟨c, hgiven, hevents, hs, ho⟩ := ageOut_eq hstored reservoir now rfl
    have hage : p.AgesOut _ oldest c := ⟨hmem, hgiven, hevents, hs, ho⟩
    rcases mem_setRetentionClass.mp hx' with ⟨hin, -⟩ | ⟨e', -, rfl⟩
    · rcases hage.mem_events.mp hin with ⟨hold, -⟩ | rfl
      · exact absurd (Table.eq_of_key_eq hold hx hid ▸ rfl) hchanged
      · exact threeNewer_replace hone he hfull hbefore hage
    · rcases hc with hc | hc <;> cases hc
  | late issueId oldest hfull hordinary hbefore =>
    obtain ⟨c, hgiven, hevents, hs, ho⟩ := ageOut_eq hfull.stored reservoir now rfl
    have hage : p.AgesOut _ e c := ⟨he, hgiven, hevents, hs, ho⟩
    rcases hage.mem_events.mp hx' with ⟨hold, -⟩ | rfl
    · exact absurd (Table.eq_of_key_eq hold hx hid ▸ rfl) hchanged
    · exact threeNewer_late hone he hfull hbefore hage

end sample

/-! ## Every step -/

section steps
variable {s s' : State} {p : Project}

theorem mem_group {eventId : Uuid} {g : Grouping} {x : CrashEvent} :
    x ∈ (p.group eventId g).events ↔ (x ∈ p.events ∧ x.id ≠ eventId) ∨
      ∃ e, p.events.find eventId = some e ∧ x = { e with grouping := g } :=
  @Table.mem_modify _ _ _ _ p.events eventId (fun e => { e with grouping := g }) (fun _ => rfl) x

/-- A recent event that moves to another issue or release finds room there. -/
theorem bounded_group (h : p.Bounded) {eventId : Uuid} {g : Grouping}
    (hroom : ∀ e ∈ p.events.find eventId, p.recentlyKept e →
      (g.issueId = e.grouping.issueId ∧ g.releaseId = e.grouping.releaseId) ∨
        ∀ issueId ∈ g.issueId, (p.recentSample issueId g.releaseId).length < 3) :
    (p.group eventId g).Bounded := by
  intro issueId releaseId
  cases hfind : p.events.find eventId with
  | none =>
    have hle := length_recentSample_le (p := p.group eventId g) (p.recentSample issueId releaseId)
      fun x hx => by
        obtain ⟨hmem, hkey⟩ := mem_recentSample.mp hx
        rcases mem_group.mp hmem with ⟨hmem, -⟩ | ⟨e, he, -⟩
        · exact ⟨x, mem_recentSample.mpr ⟨hmem, hkey⟩, rfl⟩
        · rw [hfind] at he
          cases he
    exact hle.trans (h issueId releaseId)
  | some e =>
    have hmoved : ∀ x ∈ (p.group eventId g).recentSample issueId releaseId,
        x ∈ p.recentSample issueId releaseId ∨ (x.id = e.id ∧ g.issueId = some issueId ∧
          g.releaseId = releaseId ∧ p.recentlyKept e) := by
      intro x hx
      obtain ⟨hmem, hissue, hrelease, hkept⟩ := mem_recentSample.mp hx
      rcases mem_group.mp hmem with ⟨hmem, -⟩ | ⟨e', he', rfl⟩
      · exact .inl (mem_recentSample.mpr ⟨hmem, hissue, hrelease, hkept⟩)
      · rw [hfind] at he'
        cases he'
        exact .inr ⟨rfl, hissue, hrelease, hkept⟩
    by_cases hnew : g.issueId = some issueId ∧ g.releaseId = releaseId ∧ p.recentlyKept e
    · obtain ⟨hissue, hrelease, hkept⟩ := hnew
      rcases hroom e hfind hkept with ⟨hsame, hsame'⟩ | hroom
      · have hin : e ∈ p.recentSample issueId releaseId := mem_recentSample.mpr
          ⟨(Table.find_eq_some.mp hfind).1, hsame.symm.trans hissue, hsame'.symm.trans hrelease,
            hkept⟩
        have hle := length_recentSample_le (p := p.group eventId g)
          (p.recentSample issueId releaseId) fun x hx => by
            rcases hmoved x hx with hx | ⟨hid, -⟩
            · exact ⟨x, hx, rfl⟩
            · exact ⟨e, hin, hid.symm⟩
        exact hle.trans (h issueId releaseId)
      · have hless := hroom issueId hissue
        rw [hrelease] at hless
        have hle := length_recentSample_le (p := p.group eventId g)
          (e :: p.recentSample issueId releaseId) fun x hx => by
            rcases hmoved x hx with hx | ⟨hid, -⟩
            · exact ⟨x, List.mem_cons_of_mem e hx, rfl⟩
            · exact ⟨e, List.mem_cons_self, hid.symm⟩
        rw [List.length_cons] at hle
        omega
    · have hle := length_recentSample_le (p := p.group eventId g)
        (p.recentSample issueId releaseId) fun x hx => by
          rcases hmoved x hx with hx | ⟨-, hkey⟩
          · exact ⟨x, hx, rfl⟩
          · exact absurd hkey hnew
      exact hle.trans (h issueId releaseId)

theorem names_retain {eventId : Uuid} {r : Retention} {reservoir : Bool} {now : Nat}
    {id object : Uuid} (h : (p.retain eventId r reservoir now).Names id object) :
    p.Names id object := by
  cases r with
  | unchanged => exact h
  | keep c => exact (names_setRetentionClass eventId c id object).mp h
  | age aged object' newer =>
    have haged : ∀ q, q = (if reservoir then p.setRetentionClass aged .reservoir
        else p.enqueueRawDeletion aged object' .deleting now) → q.Names id object →
        p.Names id object := by
      rintro q rfl hname
      cases reservoir with
      | true => exact (names_setRetentionClass aged .reservoir id object).mp hname
      | false => exact (names_enqueueRawDeletion id object).mp hname
    cases newer with
    | false => exact haged _ rfl h
    | true => exact haged _ rfl ((names_setRetentionClass eventId .recent id object).mp h)

/-- What a publication does to the event that it names. -/
theorem publish_eq_some {eventId : Uuid} {g : Grouping} {enforce v2 : Bool} {symbolBytes : Nat}
    {issue : Option IssueRow} {reservoir : Bool}
    (h : publish s eventId g enforce v2 symbolBytes issue reservoir = some s') :
    ∃ e ∈ (s.project.group eventId g).events, e.id = eventId ∧ ∃ r,
      (s.project.group eventId g).Samples e issue r ∧
      s'.project = (s.project.group eventId g).retain e.id r reservoir s.now := by
  obtain ⟨p, hp, h⟩ := Option.bind_eq_some_iff.mp h
  cases h
  obtain ⟨e, he, hp⟩ := Option.bind_eq_some_iff.mp hp
  obtain ⟨r, hr, hp⟩ := Option.bind_eq_some_iff.mp hp
  cases hp
  obtain ⟨hmem, hid⟩ := Table.find_eq_some.mp he
  exact ⟨e, hmem, hid, r, retention_samples hr, by rw [hid]⟩

theorem oneObject_group (h : p.OneObject) (eventId : Uuid) (g : Grouping) :
    (p.group eventId g).OneObject :=
  h.of_names fun id object => (names_group eventId g id object).mp

/-- An object belongs to one event and the samples are bounded. -/
structure State.Sampled (s : State) : Prop where
  one : s.project.OneObject
  bounded : s.project.Bounded

theorem State.Sampled.step (h : s.Sampled) {action : Action} (hc : MovesToRoom s action)
    (hs : Usage.step s action = some s') : s'.Sampled := by
  have hfade : s.project.Fades s'.project → s'.Sampled := fun hf =>
    ⟨hf.one h.one, h.bounded.fade hf⟩
  cases action with
  | publish eventId g enforce v2 symbolBytes issue reservoir =>
    obtain ⟨e, he, -, r, hr, hp⟩ := publish_eq_some hs
    refine ⟨?_, ?_⟩
    · rw [hp]
      exact (oneObject_group h.one eventId g).of_names fun _ _ hname => names_retain hname
    · rw [hp]
      exact bounded_retain (bounded_group h.bounded hc) he hr reservoir s.now
  | _ => exact hfade (fades_step h.one id hs)

/-- An event that is aged out by a step has three newer ones after it. -/
theorem threeNewer_step (hone : s.project.OneObject) {action : Action}
    (hs : Usage.step s action = some s') {x x' : CrashEvent} (hx : x ∈ s.project.events)
    (hx' : x' ∈ s'.project.events) (hid : x'.id = x.id)
    (hchanged : x'.retentionClass ≠ x.retentionClass)
    (hc : x'.retentionClass = .deleting ∨ x'.retentionClass = .reservoir) :
    s'.project.ThreeNewer x' := by
  have hfade : s.project.Fades s'.project → s'.project.ThreeNewer x' := fun hf => by
    rcases hf.rows x' hx' with hold | ⟨-, hdeleting, hreservoir⟩
    · exact absurd (Table.eq_of_key_eq hold hx hid ▸ rfl) hchanged
    · rcases hc with hc | hc
      · exact absurd hc hdeleting
      · exact absurd hc hreservoir
  cases action with
  | publish eventId g enforce v2 symbolBytes issue reservoir =>
    obtain ⟨e, he, -, r, hr, hp⟩ := publish_eq_some hs
    rw [hp] at hx' ⊢
    have hgrouped : ∃ y ∈ (s.project.group eventId g).events, y.id = x.id ∧
        y.retentionClass = x.retentionClass := by
      by_cases hevent : x.id = eventId
      · refine ⟨{ x with grouping := g }, ?_, rfl, rfl⟩
        exact mem_group.mpr (.inr ⟨x, Table.find_eq_some.mpr ⟨hx, hevent⟩, rfl⟩)
      · exact ⟨x, mem_group.mpr (.inl ⟨hx, hevent⟩), rfl, rfl⟩
    obtain ⟨y, hy, hyid, hyclass⟩ := hgrouped
    exact threeNewer_retain (oneObject_group hone eventId g) he hr hy hx' (hid.trans hyid.symm)
      (hyclass ▸ hchanged) hc
  | _ => exact hfade (fades_step hone id hs)

/-! ## Every run -/

theorem recentSample_of_reachable {policy : UsagePolicy} {reconciled : Bool}
    (h : Reachable (restrict step MovesToRoom) (fun _ => True) (.init policy reconciled) s) :
    (∀ issueId releaseId, (s.project.recentSample issueId releaseId).length ≤ 3) ∧
      ∀ action s', step s action = some s' → ∀ x ∈ s.project.events, ∀ x' ∈ s'.project.events,
        x'.id = x.id → x'.retentionClass ≠ x.retentionClass →
        x'.retentionClass = .deleting ∨ x'.retentionClass = .reservoir →
        s'.project.ThreeNewer x' := by
  have hsampled : s.Sampled :=
    h.invariant State.Sampled ⟨nofun, fun _ _ => Nat.zero_le 3⟩ fun _ _ _ _ hi hs _ => by
      obtain ⟨hcondition, hstep⟩ := restrict_eq_some.mp hs
      exact hi.step hcondition hstep
  refine ⟨hsampled.bounded, fun action s' hs x hx x' hx' hid hchanged hc => ?_⟩
  exact threeNewer_step hsampled.one hs hx hx' hid hchanged hc

end steps

section sample

/-- Events of one issue, of which the first is novel. The last one has a release of its own. -/
def threeRecent (release : Option Uuid) : List Action :=
  let g (r : Option Uuid) : Grouping := ⟨some 100, r, some [1]⟩
  (List.range' 1 6).map (fun n => .accept n (10 + n) none 10 true 0) ++
    [.publish 2 (g none) true false 0 (some ⟨1, some 2⟩) false] ++
    (List.range' 3 3).map (fun n =>
      .publish n (g release) true false 0 (some ⟨n - 1, some 2⟩) false) ++
    [.publish 6 (g (some 51)) true false 0 (some ⟨5, some 2⟩) false]

/-- The last event is published again with the release of the others. -/
def movedToFull : List Action :=
  threeRecent (some 50) ++
    [.publish 6 ⟨some 100, some 50, some [1]⟩ true false 0 (some ⟨5, some 2⟩) false]

/-- It moves to a release without recent events, and a later one ages out the first of four. -/
def movedToRoom : List Action :=
  threeRecent (some 50) ++
    [.publish 6 ⟨some 100, some 52, some [1]⟩ true false 0 (some ⟨5, some 2⟩) false,
      .accept 7 17 none 10 true 0,
      .publish 7 ⟨some 100, some 50, some [1]⟩ true false 0 (some ⟨6, some 2⟩) false]

theorem recentSample_movedToRoom :
    ∃ s, Reachable (restrict step MovesToRoom) (fun _ => True) (.init samplePolicy true) s ∧
      (∀ issueId releaseId, (s.project.recentSample issueId releaseId).length ≤ 3) ∧
      ∃ e ∈ s.project.events, e.id = 3 ∧ e.retentionClass = .deleting := by
  have hrun : (run (restrict step MovesToRoom) (fun _ => True) (.init samplePolicy true)
      movedToRoom).isSome := by
    decide +kernel
  obtain ⟨s, hs⟩ := Option.isSome_iff_exists.mp hrun
  have hreach := Reachable.of_run (.init trivial) hs
  have hrows : ∀ u ∈ run (restrict step MovesToRoom) (fun _ => True) (.init samplePolicy true)
      movedToRoom, ∃ e ∈ u.project.events.rows, e.id = 3 ∧ e.retentionClass = .deleting := by
    decide +kernel
  exact ⟨s, hreach, (recentSample_of_reachable hreach).1, hrows s hs⟩

/-- Publishing an event again with another release leaves four recent ones there. -/
theorem not_recentSample_movedToFull :
    ¬ ∀ s, Reachable step (fun _ => True) (.init samplePolicy true) s →
      ∀ issueId releaseId, (s.project.recentSample issueId releaseId).length ≤ 3 := by
  intro hbounded
  have hrun : (run step (fun _ => True) (.init samplePolicy true) movedToFull).isSome := by
    decide +kernel
  obtain ⟨s, hs⟩ := Option.isSome_iff_exists.mp hrun
  have hfour : ∀ u ∈ run step (fun _ => True) (.init samplePolicy true) movedToFull,
      (u.project.recentSample 100 (some 50)).length = 4 := by
    decide +kernel
  have hle := hbounded s (Reachable.of_run (.init trivial) hs) 100 (some 50)
  rw [hfour s hs] at hle
  exact absurd hle (by decide)

end sample

end FaultLane.Usage
