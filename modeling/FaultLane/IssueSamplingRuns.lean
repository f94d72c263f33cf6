import FaultLane.IssueSampling

set_option autoImplicit false

/-!
# Runs that keep the objects of issues and variants

The best event of every issue and one event of every variant have been given their classes for
good, in whatever order the events were received and published.
-/
namespace FaultLane.IssueSampling
open KeyedTable JobQueue TransitionSystem

/-! ## The invariant -/

/-- Each event has one row in both parts. The best event of every issue has been given its class
for good, and so has one event of every variant. -/
structure State.Sound (s : State) : Prop where
  rolled : s.issues.Rolled Issues.noneStale
  one : s.usage.project.OneObject
  alive : s.usage.project.Alive
  mirrored : ∀ x ∈ s.usage.project.events, ∃ y ∈ s.issues.events, y.id = x.id ∧
    x.grouping = grouping y ∧ x.receivedAt = y.receivedAt
  known : ∀ y ∈ s.issues.events, ∃ x ∈ s.usage.project.events, x.id = y.id
  ungrouped : ∀ x ∈ s.usage.project.events, x.grouping.issueId = none →
    x.retentionClass = .pending ∨ x.retentionClass.settled
  grouped : ∀ x ∈ s.usage.project.events, x.grouping.issueId.isSome → x.retentionClass ≠ .pending
  best : ∀ m ∈ s.issues.events, ∀ issueId, m.issue = some issueId →
    (∀ y ∈ s.issues.events, y.issue = some issueId → m.rank ≤ y.rank) →
    s.usage.project.ForGood m.id
  variants : ∀ m ∈ s.issues.events, ∀ issueId variant, Issues.InVariant issueId variant m →
    ∃ m' ∈ s.issues.events, Issues.InVariant issueId variant m' ∧ s.usage.project.ForGood m'.id

section sound
variable {s s' : State}

theorem sound_init (policy : Usage.UsagePolicy) (reconciled : Bool) :
    (State.init policy reconciled).Sound := by
  have hevents (x : Usage.CrashEvent) : x ∉ (State.init policy reconciled).usage.project.events :=
    Table.not_mem_empty x
  have hissues (y : Issues.CrashEvent) : y ∉ (State.init policy reconciled).issues.events :=
    Table.not_mem_empty y
  exact ⟨Issues.rolled_init, fun x hx => absurd hx (hevents x), fun x hx => absurd hx (hevents x),
    fun x hx => absurd hx (hevents x), fun y hy => absurd hy (hissues y),
    fun x hx => absurd hx (hevents x), fun x hx => absurd hx (hevents x),
    fun y hy => absurd hy (hissues y), fun y hy => absurd hy (hissues y)⟩

/-- Steps that decide on no event and leave the issues alone. -/
theorem State.Sound.follow (h : s.Sound) {u : Usage.State} (hone : u.project.OneObject)
    (halive : u.project.Alive) (hf : s.usage.project.Follows u.project none) :
    { s with usage := u }.Sound where
  rolled := h.rolled
  one := hone
  alive := halive
  mirrored x' hx' := by
    obtain ⟨x, hx, hid, hreceived, hgrouping, -⟩ := hf.row hx'
    obtain ⟨y, hy, hyid, hygrouping, hyreceived⟩ := h.mirrored x hx
    exact ⟨y, hy, hyid.trans hid.symm, hgrouping.trans hygrouping, hreceived.trans hyreceived⟩
  known y hy := by
    obtain ⟨x, hx, hid⟩ := h.known y hy
    obtain ⟨x', hx', hid', -⟩ := hf.rows x hx
    exact ⟨x', hx', hid'.trans hid⟩
  ungrouped x' hx' hnone := by
    obtain ⟨x, hx, -, -, hgrouping, hclass⟩ := hf.row hx'
    have hold := h.ungrouped x hx (hgrouping ▸ hnone)
    cases hclass with
    | same hc => rwa [hc]
    | passed hpending hsettled _ => exact absurd hold (not_or.mpr ⟨hpending, hsettled⟩)
    | decided hid _ _ => cases hid
  grouped x' hx' hsome := by
    obtain ⟨x, hx, -, -, hgrouping, hclass⟩ := hf.row hx'
    cases hclass with
    | same hc => exact hc ▸ h.grouped x hx (hgrouping ▸ hsome)
    | passed _ _ hc => exact hc
    | decided hid _ _ => cases hid
  best m hm issueId hissue hleast := hf.forGood (h.best m hm issueId hissue hleast)
  variants m hm issueId variant hin := by
    obtain ⟨m', hm', hin', hgood⟩ := h.variants m hm issueId variant hin
    exact ⟨m', hm', hin', hf.forGood hgood⟩

theorem State.Sound.spare (h : s.Sound) {action : Usage.Action}
    (hs : IssueSampling.spare s action = some s') : s'.Sound := by
  unfold IssueSampling.spare at hs
  split_ifs at hs with ha
  obtain ⟨u, hu, hs⟩ := Option.bind_eq_some_iff.mp hs
  cases hs
  obtain ⟨hfollows, halive⟩ := Usage.follows_spared h.alive ha hu
  exact h.follow ((Usage.fades_spared h.one ha hu).one h.one) halive hfollows

theorem State.Sound.accept (h : s.Sound) {eventId objectId : Uuid} {crashGuid : Option Uuid}
    {byteSize : Nat} {enforcement : Bool} {c : Usage.Cycle}
    (hs : IssueSampling.accept s eventId objectId crashGuid byteSize enforcement c = some s') :
    s'.Sound := by
  obtain ⟨⟨p, admission⟩, hp, hs⟩ := Option.bind_eq_some_iff.mp hs
  obtain ⟨u, hu, hs⟩ := Option.bind_eq_some_iff.mp hs
  obtain ⟨t, ht, hs⟩ := Option.bind_eq_some_iff.mp hs
  cases hs
  obtain ⟨⟨p', admission'⟩, hp', hu⟩ := Option.bind_eq_some_iff.mp hu
  cases hp.symm.trans hp'
  cases hu
  rcases Usage.persistEvent_accepts hp with ⟨rfl, rfl⟩ | ⟨hsome, e, o, hid, hreceived, haccepts⟩
  · cases ht
    exact h.follow h.one h.alive (.of_events rfl)
  · rw [if_pos hsome] at ht
    have hrolled := h.rolled.insertEvent ht
    unfold Issues.insertEvent at ht
    split_ifs at ht with hnew
    cases ht
    let y : Issues.CrashEvent := ⟨eventId, s.usage.now, .pending, .pending⟩
    have hnone : s.issues.events.find y.id = none := Option.not_isSome_iff_eq_none.mp hnew
    have hrow (z : Issues.CrashEvent) : z ∈ s.issues.events.insert y ↔
        z = y ∨ z ∈ s.issues.events := Table.mem_insert hnone
    have hgood {id : Uuid} (hold : s.usage.project.ForGood id) : p.ForGood id := by
      obtain ⟨x, hx, hxid, hsettled⟩ := hold
      exact ⟨x, haccepts.mem_events.mpr (.inr hx), hxid, hsettled⟩
    refine ⟨hrolled, haccepts.fades.one h.one, haccepts.alive h.alive, fun x hx => ?_,
      fun z hz => ?_, fun x hx hungrouped => ?_, fun x hx hgrouped => ?_,
      fun m hm issueId hissue hleast => ?_, fun m hm issueId variant hin => ?_⟩
    · rcases haccepts.mem_events.mp hx with rfl | hx
      · exact ⟨y, (hrow y).mpr (.inl rfl), hid.symm, haccepts.grouping, hreceived⟩
      · obtain ⟨z, hz, hsame⟩ := h.mirrored x hx
        exact ⟨z, (hrow z).mpr (.inr hz), hsame⟩
    · rcases (hrow z).mp hz with rfl | hz
      · exact ⟨e, haccepts.mem_events.mpr (.inl rfl), hid⟩
      · obtain ⟨x, hx, hxid⟩ := h.known z hz
        exact ⟨x, haccepts.mem_events.mpr (.inr hx), hxid⟩
    · rcases haccepts.mem_events.mp hx with rfl | hx
      · exact haccepts.given.imp id .inl
      · exact h.ungrouped x hx hungrouped
    · rcases haccepts.mem_events.mp hx with rfl | hx
      · rw [haccepts.grouping] at hgrouped
        cases hgrouped
      · exact h.grouped x hx hgrouped
    · rcases (hrow m).mp hm with rfl | hm
      · cases hissue
      · exact hgood (h.best m hm issueId hissue fun z hz => hleast z ((hrow z).mpr (.inr hz)))
    · rcases (hrow m).mp hm with rfl | hm
      · cases hin.1
      · obtain ⟨m', hm', hin', hold⟩ := h.variants m hm issueId variant hin
        exact ⟨m', (hrow m').mpr (.inr hm'), hin', hgood hold⟩

end sound

/-! ## The publication of an event -/

/-- A publication on both parts: the rows of its event, and what becomes of its class. -/
structure Published (s s' : State) (e e' : Issues.CrashEvent) (x : Usage.CrashEvent) : Prop where
  event : e ∈ s.issues.events
  row : x ∈ s.usage.project.events
  same : e.id = x.id
  new : e'.id = e.id
  received : e'.receivedAt = e.receivedAt
  kept : e.issue ≠ none → e'.grouping = e.grouping
  rows : ∀ y, y ∈ s'.issues.events ↔ (y ∈ s.issues.events ∧ y.id ≠ e.id) ∨ y = e'
  rolled : s'.issues.Rolled Issues.noneStale
  follows : (s.usage.project.group x.id (grouping e')).Follows s'.usage.project (some x.id)
  one : s'.usage.project.OneObject
  alive : s'.usage.project.Alive
  decided : x.retentionClass = .pending →
    (∀ z ∈ s'.usage.project.events, z.id = x.id → z.retentionClass ≠ .pending) ∧
      (s'.usage.project.ForGood x.id ∨ (e'.issue.isSome ∧
        (s.usage.project.group x.id (grouping e')).Ordinary { x with grouping := grouping e' }
          (issueRow s'.issues e')))

section published
variable {s s' : State}

theorem published_of_publish (h : s.Sound) {eventId newIssueId : Uuid} {candidates : List Uuid}
    {g : Issues.GroupingPublication} {enforce v2 : Bool} {symbolBytes : Nat} {reservoir : Bool}
    (hs : IssueSampling.publish s eventId candidates g newIssueId enforce v2 symbolBytes reservoir =
      some s') : ∃ e e' x, Published s s' e e' x := by
  obtain ⟨t, ht, hs⟩ := Option.bind_eq_some_iff.mp hs
  obtain ⟨e₀, he₀, hs⟩ := Option.bind_eq_some_iff.mp hs
  obtain ⟨u, hu, hs⟩ := Option.bind_eq_some_iff.mp hs
  cases hs
  obtain ⟨e, he, e', hid, hid', hreceived, hkept, hrows⟩ := publish_events ht
  obtain ⟨he₀, he₀id⟩ := Table.find_eq_some.mp he₀
  have heq : e₀ = e' := by
    rcases (hrows e₀).mp he₀ with ⟨-, hne⟩ | heq
    · exact absurd (he₀id.trans hid.symm) hne
    · exact heq
  subst heq
  obtain ⟨x₁, hx₁, hx₁id, r, hr, hp⟩ := Usage.publish_eq_some hu
  have hgrouped : ∃ x ∈ s.usage.project.events, x.id = eventId ∧
      x₁ = { x with grouping := grouping e₀ } := by
    rcases Usage.mem_group.mp hx₁ with ⟨-, hne⟩ | ⟨x, hx, rfl⟩
    · exact absurd hx₁id hne
    · obtain ⟨hx, hxid⟩ := Table.find_eq_some.mp hx
      exact ⟨x, hx, hxid, rfl⟩
  obtain ⟨x, hx, rfl, rfl⟩ := hgrouped
  have hone := Usage.oneObject_group h.one x.id (grouping e₀)
  have halive := h.alive.group x.id (grouping e₀)
  have hfollows := Usage.follows_retain hx₁ hr reservoir s.usage.now
  have halive' := Usage.alive_retain hone halive hx₁ hr reservoir s.usage.now
  refine ⟨e, e₀, x, ⟨he, hx, hid, hid', hreceived, hkept, hrows, h.rolled.publish ht, ?_, ?_, ?_,
    fun hpending => ?_⟩⟩
  · rw [hp]
    exact hfollows
  · rw [hp]
    exact hone.of_names fun _ _ hname => Usage.names_retain hname
  · rw [hp]
    exact halive'
  · rw [hp]
    exact Usage.decided_retain halive hx₁ hpending hr reservoir s.usage.now

variable {e e' : Issues.CrashEvent} {x : Usage.CrashEvent}

/-- A row of the event table after a publication, with the row before it. -/
theorem Published.before (h : Published s s' e e' x) {x' : Usage.CrashEvent}
    (hx' : x' ∈ s'.usage.project.events) :
    (∃ w ∈ s.usage.project.events, w.id ≠ x.id ∧ x'.id = w.id ∧ x'.receivedAt = w.receivedAt ∧
      x'.grouping = w.grouping ∧ Usage.ClassChange none w x'.retentionClass) ∨
    (x'.id = x.id ∧ x'.receivedAt = x.receivedAt ∧ x'.grouping = grouping e' ∧
      Usage.ClassChange (some x.id) x x'.retentionClass) := by
  obtain ⟨w, hw, hid, hreceived, hgrouping, hclass⟩ := h.follows.row hx'
  rcases Usage.mem_group.mp hw with ⟨hw, hne⟩ | ⟨y, hy, rfl⟩
  · refine .inl ⟨w, hw, hne, hid, hreceived, hgrouping, ?_⟩
    cases hclass with
    | same hc => exact .same hc
    | passed hpending hsettled hc => exact .passed hpending hsettled hc
    | decided hdecided _ _ => exact absurd (Option.some.inj hdecided).symm hne
  · obtain ⟨hy, hyid⟩ := Table.find_eq_some.mp hy
    obtain rfl := Table.eq_of_key_eq hy h.row hyid
    refine .inr ⟨hid, hreceived, hgrouping, ?_⟩
    cases hclass with
    | same hc => exact .same hc
    | passed hpending hsettled hc => exact .passed hpending hsettled hc
    | decided hdecided hpending hc => exact .decided hdecided hpending hc

theorem Published.forGood (h : Published s s' e e' x) {eventId : Uuid}
    (hgood : s.usage.project.ForGood eventId) : s'.usage.project.ForGood eventId := by
  obtain ⟨w, hw, hid, hsettled⟩ := hgood
  refine h.follows.forGood ?_
  by_cases heq : w.id = x.id
  · refine ⟨{ w with grouping := grouping e' }, ?_, hid, hsettled⟩
    exact Usage.mem_group.mpr (.inr ⟨w, Table.find_eq_some.mpr ⟨hw, heq⟩, rfl⟩)
  · exact ⟨w, Usage.mem_group.mpr (.inl ⟨hw, heq⟩), hid, hsettled⟩

theorem Published.mirror (h : Published s s' e e' x) (hsound : s.Sound) :
    x.grouping = grouping e ∧ x.receivedAt = e.receivedAt := by
  obtain ⟨y, hy, hid, hsame⟩ := hsound.mirrored x h.row
  obtain rfl := Table.eq_of_key_eq hy h.event (hid.trans h.same.symm)
  exact hsame

/-- A grouped event keeps its issue, its variant and its rank. -/
theorem Published.stays (h : Published s s' e e' x) {issueId : Uuid}
    (hissue : e.issue = some issueId) :
    e'.issue = some issueId ∧ e'.variant = e.variant ∧ e'.rank = e.rank := by
  have hgrouping := h.kept (by rw [hissue]; nofun)
  refine ⟨?_, ?_, Issues.rank_of_grouping h.new h.received hgrouping⟩
  · rw [← hissue, Issues.CrashEvent.issue, hgrouping, Issues.CrashEvent.issue]
  · rw [Issues.CrashEvent.variant, hgrouping, Issues.CrashEvent.variant]

/-- An event without an issue has been decided for good or is pending. -/
theorem Published.undecided (h : Published s s' e e' x) (hsound : s.Sound)
    (hnone : e.issue = none) :
    x.retentionClass = .pending ∨ s'.usage.project.ForGood x.id := by
  have hungrouped : x.grouping.issueId = none := by
    rw [(h.mirror hsound).1]
    exact hnone
  exact (hsound.ungrouped x h.row hungrouped).imp id fun hsettled =>
    h.forGood ⟨x, h.row, rfl, hsettled⟩

theorem Published.ungrouped (h : Published s s' e e' x) (hsound : s.Sound)
    {x' : Usage.CrashEvent} (hx' : x' ∈ s'.usage.project.events)
    (hnone : x'.grouping.issueId = none) :
    x'.retentionClass = .pending ∨ x'.retentionClass.settled := by
  rcases h.before hx' with ⟨w, hw, -, -, -, hgrouping, hclass⟩ | ⟨hid, -, hgrouping, hclass⟩
  · have hold := hsound.ungrouped w hw (hgrouping ▸ hnone)
    cases hclass with
    | same hc => rwa [hc]
    | passed hpending hsettled _ => exact absurd hold (not_or.mpr ⟨hpending, hsettled⟩)
    | decided hdecided _ _ => cases hdecided
  · rw [hgrouping] at hnone
    have hissue : e.issue = none := by
      cases hissue : e.issue with
      | none => rfl
      | some issueId =>
        exact absurd ((h.stays hissue).1.symm.trans hnone) nofun
    have hgood : s'.usage.project.ForGood x.id ∨ x.retentionClass ≠ .pending := by
      by_cases hpending : x.retentionClass = .pending
      · refine .inl ((h.decided hpending).2.resolve_right fun hordinary => ?_)
        have hsome := hordinary.1
        rw [show e'.issue = none from hnone] at hsome
        cases hsome
      · exact .inr hpending
    have hfor : s'.usage.project.ForGood x.id := by
      rcases hgood with hgood | hpending
      · exact hgood
      · exact (h.undecided hsound hissue).resolve_left hpending
    obtain ⟨z, hz, hzid, hsettled⟩ := hfor
    obtain rfl := Table.eq_of_key_eq hz hx' (hzid.trans hid.symm)
    exact .inr hsettled

theorem Published.grouped (h : Published s s' e e' x) (hsound : s.Sound)
    {x' : Usage.CrashEvent} (hx' : x' ∈ s'.usage.project.events)
    (hsome : x'.grouping.issueId.isSome) : x'.retentionClass ≠ .pending := by
  rcases h.before hx' with ⟨w, hw, -, -, -, hgrouping, hclass⟩ | ⟨hid, -, -, hclass⟩
  · cases hclass with
    | same hc => exact hc ▸ hsound.grouped w hw (hgrouping ▸ hsome)
    | passed _ _ hc => exact hc
    | decided hdecided _ _ => cases hdecided
  · cases hclass with
    | same hc =>
      by_cases hpending : x.retentionClass = .pending
      · exact (h.decided hpending).1 x' hx' hid
      · rwa [hc]
    | passed _ _ hc => exact hc
    | decided _ _ hc => exact hc

/-- The best event of an issue is its representative. -/
theorem issueRow_best {t : Issues.State} (ht : t.Rolled Issues.noneStale) {m : Issues.CrashEvent}
    (hm : m ∈ t.events) {issueId : Uuid} (hissue : m.issue = some issueId)
    (hleast : ∀ y ∈ t.events, y.issue = some issueId → m.rank ≤ y.rank) :
    ∃ row ∈ issueRow t m, row.representative = some m.id := by
  obtain ⟨i, hi, rfl⟩ := ht.named m hm issueId hissue
  obtain ⟨σ, hσ, hrollup⟩ := ht.issues i hi
  obtain ⟨representative, hrepresentative, hrow⟩ := Option.map_eq_some_iff.mp hrollup
  refine ⟨⟨i.eventCount, i.representative⟩, ?_, ?_⟩
  · rw [issueRow, hissue, Option.bind_eq_bind, Option.bind_some, Table.find_eq_some.mpr ⟨hi, rfl⟩]
    rfl
  · have hmem : m.rank ∈ Issues.ranks t.events (Issues.InIssue i.id) :=
      Issues.mem_ranks.mpr ⟨m, hm, hissue, rfl⟩
    obtain ⟨b, hb, hbissue, hbrank⟩ := Issues.mem_ranks.mp hσ.best.1
    have hrank : σ.best = m.rank :=
      le_antisymm (hσ.best.2 hmem) (hbrank ▸ hleast b hb hbissue)
    have hevent : representative = Issues.eventOf σ.best :=
      congrArg Issues.Rollup.representative hrow
    rw [hrepresentative, hevent, hrank]
    rfl

theorem Published.best (h : Published s s' e e' x) (hsound : s.Sound) {m : Issues.CrashEvent}
    (hm : m ∈ s'.issues.events) {issueId : Uuid} (hissue : m.issue = some issueId)
    (hleast : ∀ y ∈ s'.issues.events, y.issue = some issueId → m.rank ≤ y.rank) :
    s'.usage.project.ForGood m.id := by
  have hmem' : e' ∈ s'.issues.events := (h.rows e').mpr (.inr rfl)
  have hold : ∀ y ∈ s.issues.events, y.issue = some issueId → m.rank ≤ y.rank := by
    intro y hy hyissue
    by_cases hid : y.id = e.id
    · obtain rfl := Table.eq_of_key_eq hy h.event hid
      obtain ⟨hissue', -, hrank⟩ := h.stays hyissue
      exact hrank ▸ hleast e' hmem' hissue'
    · exact hleast y ((h.rows y).mpr (.inl ⟨hy, hid⟩)) hyissue
  rcases (h.rows m).mp hm with ⟨hm, -⟩ | rfl
  · exact h.forGood (hsound.best m hm issueId hissue hold)
  · rw [h.new]
    cases hgroup : e.issue with
    | some i =>
      obtain ⟨hissue', -, hrank⟩ := h.stays hgroup
      obtain rfl := Option.some.inj (hissue'.symm.trans hissue)
      exact h.forGood (hsound.best e h.event i hgroup fun y hy hyissue => hrank ▸ hold y hy hyissue)
    | none =>
      rw [h.same]
      rcases h.undecided hsound hgroup with hpending | hgood
      · refine (h.decided hpending).2.resolve_right fun hordinary => ?_
        obtain ⟨row, hrow, hrepresentative⟩ := issueRow_best h.rolled hm hissue hleast
        refine hordinary.2.represented row hrow (hrepresentative.trans ?_)
        exact congrArg some (h.new.trans h.same)
      · exact hgood

/-- An event of a variant stays one. -/
theorem Published.carry (h : Published s s' e e' x) {issueId : Uuid} {variant : String}
    {m : Issues.CrashEvent} (hm : m ∈ s.issues.events)
    (hin : Issues.InVariant issueId variant m) (hgood : s.usage.project.ForGood m.id) :
    ∃ m' ∈ s'.issues.events, Issues.InVariant issueId variant m' ∧
      s'.usage.project.ForGood m'.id := by
  by_cases hid : m.id = e.id
  · obtain rfl := Table.eq_of_key_eq hm h.event hid
    obtain ⟨hissue, hvariant, -⟩ := h.stays hin.1
    refine ⟨e', (h.rows e').mpr (.inr rfl), ⟨hissue, hvariant.trans hin.2⟩, ?_⟩
    rw [h.new]
    exact h.forGood hgood
  · exact ⟨m, (h.rows m).mpr (.inl ⟨hm, hid⟩), hin, h.forGood hgood⟩

/-- An event that is not the first of its variant has an earlier one. -/
theorem Published.prior (h : Published s s' e e' x) (hsound : s.Sound) {issueId : Uuid}
    {variant : String} (hin : Issues.InVariant issueId variant e')
    (hnot : ¬ (s.usage.project.group x.id (grouping e')).variantFirst
      { x with grouping := grouping e' }) :
    ∃ y ∈ s.issues.events, Issues.InVariant issueId variant y := by
  unfold Usage.Project.variantFirst at hnot
  obtain ⟨z, hz, hissue, ⟨hvariant, -⟩, hbefore⟩ := not_not.mp hnot
  have hself : ({ x with grouping := grouping e' } : Usage.CrashEvent) ∈
      (s.usage.project.group x.id (grouping e')).events :=
    Usage.mem_group.mpr (.inr ⟨x, Table.find_eq_some.mpr ⟨h.row, rfl⟩, rfl⟩)
  rcases Usage.mem_group.mp hz with ⟨hz, -⟩ | ⟨w, hw, rfl⟩
  · obtain ⟨y, hy, -, hgrouping, -⟩ := hsound.mirrored z hz
    rw [hgrouping] at hissue hvariant
    refine ⟨y, hy, hissue.trans hin.1, ?_⟩
    have hutf8 : y.variant.map RustText.utf8 = e'.variant.map RustText.utf8 := hvariant
    exact (Option.map_injective RustText.utf8_injective hutf8).trans hin.2
  · obtain ⟨hw, hwid⟩ := Table.find_eq_some.mp hw
    obtain rfl := Table.eq_of_key_eq hw h.row hwid
    exact absurd hbefore (Usage.CrashEvent.not_before_self _)

theorem Published.variants (h : Published s s' e e' x) (hsound : s.Sound)
    {m : Issues.CrashEvent} (hm : m ∈ s'.issues.events) {issueId : Uuid} {variant : String}
    (hin : Issues.InVariant issueId variant m) :
    ∃ m' ∈ s'.issues.events, Issues.InVariant issueId variant m' ∧
      s'.usage.project.ForGood m'.id := by
  have hold {y : Issues.CrashEvent} (hy : y ∈ s.issues.events)
      (hyin : Issues.InVariant issueId variant y) : ∃ m' ∈ s'.issues.events,
      Issues.InVariant issueId variant m' ∧ s'.usage.project.ForGood m'.id := by
    obtain ⟨m', hm', hin', hgood⟩ := hsound.variants y hy issueId variant hyin
    exact h.carry hm' hin' hgood
  rcases (h.rows m).mp hm with ⟨hm, -⟩ | rfl
  · exact hold hm hin
  · cases hgroup : e.issue with
    | some i =>
      obtain ⟨hissue, hvariant, -⟩ := h.stays hgroup
      refine hold h.event ⟨?_, hvariant.symm.trans hin.2⟩
      rw [hgroup, ← hissue]
      exact hin.1
    | none =>
      have hself (hgood : s'.usage.project.ForGood x.id) : ∃ m' ∈ s'.issues.events,
          Issues.InVariant issueId variant m' ∧ s'.usage.project.ForGood m'.id := by
        refine ⟨m, hm, hin, ?_⟩
        rw [h.new, h.same]
        exact hgood
      rcases h.undecided hsound hgroup with hpending | hgood
      · rcases (h.decided hpending).2 with hgood | ⟨-, hordinary⟩
        · exact hself hgood
        · obtain ⟨y, hy, hyin⟩ := h.prior hsound hin hordinary.variant
          exact hold hy hyin
      · exact hself hgood

theorem Published.sound (h : Published s s' e e' x) (hsound : s.Sound) : s'.Sound where
  rolled := h.rolled
  one := h.one
  alive := h.alive
  mirrored x' hx' := by
    rcases h.before hx' with ⟨w, hw, hne, hid, hreceived, hgrouping, -⟩ |
      ⟨hid, hreceived, hgrouping, -⟩
    · obtain ⟨y, hy, hyid, hygrouping, hyreceived⟩ := hsound.mirrored w hw
      have hother : y.id ≠ e.id := fun heq => hne (hyid.symm.trans (heq.trans h.same))
      exact ⟨y, (h.rows y).mpr (.inl ⟨hy, hother⟩), hyid.trans hid.symm,
        hgrouping.trans hygrouping, hreceived.trans hyreceived⟩
    · refine ⟨e', (h.rows e').mpr (.inr rfl), ?_, hgrouping, ?_⟩
      · rw [hid, h.new, h.same]
      · rw [hreceived, (h.mirror hsound).2, h.received]
  known y hy := by
    have hkept {w : Usage.CrashEvent}
        (hw : w ∈ (s.usage.project.group x.id (grouping e')).events) :
        ∃ x' ∈ s'.usage.project.events, x'.id = w.id := by
      obtain ⟨x', hx', hid, -⟩ := h.follows.rows w hw
      exact ⟨x', hx', hid⟩
    rcases (h.rows y).mp hy with ⟨hy, hne⟩ | rfl
    · obtain ⟨w, hw, hid⟩ := hsound.known y hy
      rw [← hid]
      exact hkept (Usage.mem_group.mpr (.inl
        ⟨hw, fun heq => hne (hid.symm.trans (heq.trans h.same.symm))⟩))
    · rw [h.new, h.same]
      let w : Usage.CrashEvent := { x with grouping := grouping y }
      have hw : w ∈ (s.usage.project.group x.id (grouping y)).events :=
        Usage.mem_group.mpr (.inr ⟨x, Table.find_eq_some.mpr ⟨h.row, rfl⟩, rfl⟩)
      obtain ⟨x', hx', hid⟩ := hkept hw
      exact ⟨x', hx', hid⟩
  ungrouped _ hx' := h.ungrouped hsound hx'
  grouped _ hx' := h.grouped hsound hx'
  best _ hm _ := h.best hsound hm
  variants _ hm _ _ := h.variants hsound hm

end published

/-! ## Every run -/

section runs
variable {s s' : State}

theorem State.Sound.step (h : s.Sound) {action : Action}
    (hs : IssueSampling.step s action = some s') : s'.Sound := by
  cases action with
  | accept eventId objectId crashGuid byteSize enforcement cycle => exact h.accept hs
  | publish eventId candidates g newIssueId enforce v2 symbolBytes reservoir =>
    obtain ⟨e, e', x, hpublished⟩ := published_of_publish h hs
    exact hpublished.sound h
  | repairIssue issueId =>
    obtain ⟨t, ht, hs⟩ := Option.bind_eq_some_iff.mp hs
    cases hs
    obtain ⟨i, hfind, -⟩ := Option.bind_eq_some_iff.mp ht
    obtain ⟨hi, rfl⟩ := Table.find_eq_some.mp hfind
    obtain rfl := Option.some.inj ((h.rolled.repairIssue hi).symm.trans ht)
    exact h
  | spare action => exact h.spare hs

/-- What has been given its class for good has its object. -/
theorem State.Sound.stored (h : s.Sound) {m : Issues.CrashEvent} (hm : m ∈ s.issues.events)
    (hgood : s.usage.project.ForGood m.id) : ∃ x ∈ s.usage.project.events, x.id = m.id ∧
      x.grouping = grouping m ∧ s.usage.project.storedObject x.objectId := by
  obtain ⟨x, hx, hid, hsettled⟩ := hgood
  obtain ⟨y, hy, hyid, hgrouping, -⟩ := h.mirrored x hx
  obtain rfl := Table.eq_of_key_eq hy hm (hyid.trans hid)
  exact ⟨x, hx, hid, hgrouping, h.alive x hx hsettled.alive⟩

theorem State.Sound.examinable (h : s.Sound) : s.Examinable where
  representatives i hi := by
    obtain ⟨σ, hσ, hrollup⟩ := h.rolled.issues i hi
    obtain ⟨representative, hrepresentative, hrow⟩ := Option.map_eq_some_iff.mp hrollup
    obtain ⟨m, hm, hissue, hrank⟩ := Issues.mem_ranks.mp hσ.best.1
    have hgood := h.best m hm i.id hissue fun y hy hyissue => by
      rw [hrank]
      exact hσ.best.2 (Issues.mem_ranks.mpr ⟨y, hy, hyissue, rfl⟩)
    obtain ⟨x, hx, hid, -, hstored⟩ := h.stored hm hgood
    have hevent : representative = Issues.eventOf σ.best :=
      congrArg Issues.Rollup.representative hrow
    refine ⟨x, hx, ?_, hstored⟩
    rw [hrepresentative, hevent, ← hrank, hid]
    rfl
  variants issueId variant hsome := by
    rcases h.rolled.variants issueId variant with ⟨-, hnone⟩ | ⟨σ, hσ, -⟩
    · rw [hnone] at hsome
      cases hsome
    · obtain ⟨m, hm, hin, -⟩ := Issues.mem_ranks.mp hσ.best.1
      obtain ⟨m', hm', hin', hgood⟩ := h.variants m hm issueId variant hin
      obtain ⟨x, hx, -, hgrouping, hstored⟩ := h.stored hm' hgood
      refine ⟨x, hx, ?_, ?_, hstored⟩
      · rw [hgrouping]
        exact hin'.1
      · rw [hgrouping]
        exact congrArg (Option.map RustText.utf8) hin'.2

theorem examinable_of_reachable {policy : Usage.UsagePolicy} {reconciled : Bool}
    (h : Reachable step (fun _ => True) (.init policy reconciled) s) : s.Examinable := by
  have hsound : s.Sound :=
    h.invariant State.Sound (sound_init policy reconciled) fun _ _ _ _ hi hs _ => hi.step hs
  exact hsound.examinable

end runs

section sample

/-- Six events of one issue in two variants. The best one is published last, and the one before
it ages out the oldest of three recent ones, whose object a worker deletes. -/
def sampledIssue : List Action :=
  let published (n : Nat) (variant : String) (quality : Nat) : Action :=
    .publish n [50] (.grouped ⟨"issue", variant, "Crash", quality⟩) (100 + n) true false 0 false
  (List.range' 1 7).map (fun n => .accept n (10 + n) none 10 true 0) ++
    [published 2 "a" 3, published 7 "a" 3, published 3 "a" 3, published 4 "a" 3, published 5 "a" 3,
      published 6 "b" 5, .spare (.claim 13 ⟨9, 31⟩), .spare (.loadRaw 31 true),
      .spare (.deleteObject 31), .spare (.finishRaw 31 0), .repairIssue 102]

theorem examinable_sampledIssue :
    ∃ s, Reachable step (fun _ => True) (.init Usage.samplePolicy true) s ∧ s.Examinable ∧
      s.issues.issues.rows.map Issues.Issue.representative = [some 6] ∧
      ∃ e ∈ s.usage.project.events, e.id = 3 ∧ e.retentionClass = .discarded := by
  have hrun : (run step (fun _ => True) (.init Usage.samplePolicy true) sampledIssue).isSome := by
    decide +kernel
  obtain ⟨s, hs⟩ := Option.isSome_iff_exists.mp hrun
  have hreach := Reachable.of_run (.init trivial) hs
  have hrows : ∀ u ∈ run step (fun _ => True) (.init Usage.samplePolicy true) sampledIssue,
      u.issues.issues.rows.map Issues.Issue.representative = [some 6] ∧
      ∃ e ∈ u.usage.project.events.rows, e.id = 3 ∧ e.retentionClass = .discarded := by
    decide +kernel
  exact ⟨s, hreach, examinable_of_reachable hreach, hrows s hs⟩

end sample

end FaultLane.IssueSampling
