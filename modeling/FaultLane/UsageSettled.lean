import FaultLane.UsageRecency

set_option autoImplicit false

/-!
# The classes that publications give for good

A publication decides on a pending event alone. No other class turns into a pending one, the
classes that were given for good stay, and an event that is not being deleted has its object.
-/
namespace FaultLane.Usage
open KeyedTable JobQueue TransitionSystem

/-- The classes that no deletion goes with. -/
def RetentionClass.alive (c : RetentionClass) : Prop :=
  c ≠ .deleting ∧ c ≠ .discarded ∧ c ≠ .expired

/-- Every event that is not deleted has a stored object. -/
def Project.Alive (p : Project) : Prop :=
  ∀ x ∈ p.events, x.retentionClass.alive → p.storedObject x.objectId

/-- The event has been given its class for good. -/
def Project.ForGood (p : Project) (eventId : Uuid) : Prop :=
  ∃ x ∈ p.events, x.id = eventId ∧ x.retentionClass.settled

theorem RetentionClass.settled.alive {c : RetentionClass} (h : c.settled) : c.alive := by
  rcases h with rfl | rfl | rfl | rfl <;> exact ⟨nofun, nofun, nofun⟩

theorem RetentionClass.settled.ne_pending {c : RetentionClass} (h : c.settled) : c ≠ .pending := by
  rcases h with rfl | rfl | rfl | rfl <;> nofun

/-- How the class of an event may change, when a publication decides on `decided`. -/
inductive ClassChange (decided : Option Uuid) (x : CrashEvent) (c : RetentionClass) : Prop where
  | same (h : c = x.retentionClass)
  | passed (hpending : x.retentionClass ≠ .pending) (hsettled : ¬ x.retentionClass.settled)
      (h : c ≠ .pending)
  | decided (hid : decided = some x.id) (hpending : x.retentionClass = .pending) (h : c ≠ .pending)

/-- The events after a step, each with its identity and grouping. -/
structure Project.Follows (p p' : Project) (decided : Option Uuid) : Prop where
  rows : ∀ x ∈ p.events, ∃ x' ∈ p'.events, x'.id = x.id ∧ x'.receivedAt = x.receivedAt ∧
    x'.grouping = x.grouping ∧ ClassChange decided x x'.retentionClass
  back : ∀ x' ∈ p'.events, ∃ x ∈ p.events, x.id = x'.id

section follows
variable {p p' p'' : Project} {decided : Option Uuid}

theorem Project.Follows.of_events (h : p'.events = p.events) : p.Follows p' decided where
  rows x hx := ⟨x, h ▸ hx, rfl, rfl, rfl, .same rfl⟩
  back x hx := ⟨x, h ▸ hx, rfl⟩

theorem follows_setRetentionClass {eventId : Uuid} {c : RetentionClass}
    (hc : ∀ x ∈ p.events, x.id = eventId → ClassChange decided x c) :
    p.Follows (p.setRetentionClass eventId c) decided where
  rows x hx := by
    by_cases hid : x.id = eventId
    · refine ⟨{ x with retentionClass := c }, ?_, rfl, rfl, rfl, hc x hx hid⟩
      exact mem_setRetentionClass.mpr (.inr ⟨x, Table.find_eq_some.mpr ⟨hx, hid⟩, rfl⟩)
    · exact ⟨x, mem_setRetentionClass.mpr (.inl ⟨hx, hid⟩), rfl, rfl, rfl, .same rfl⟩
  back x hx := by
    rcases mem_setRetentionClass.mp hx with ⟨hx, -⟩ | ⟨e, he, rfl⟩
    · exact ⟨x, hx, rfl⟩
    · exact ⟨e, (Table.find_eq_some.mp he).1, rfl⟩

theorem Project.Follows.congr (h : p.Follows p' decided) (he : p''.events = p'.events) :
    p.Follows p'' decided := by
  refine ⟨fun x hx => ?_, fun x hx => h.back x (he ▸ hx)⟩
  obtain ⟨x', hx', hsame⟩ := h.rows x hx
  exact ⟨x', he ▸ hx', hsame⟩

/-- The row of an event before and after a step. -/
theorem Project.Follows.row (h : p.Follows p' decided) {x' : CrashEvent} (hx' : x' ∈ p'.events) :
    ∃ x ∈ p.events, x'.id = x.id ∧ x'.receivedAt = x.receivedAt ∧ x'.grouping = x.grouping ∧
      ClassChange decided x x'.retentionClass := by
  obtain ⟨x, hx, hid⟩ := h.back x' hx'
  obtain ⟨y, hy, hyid, hsame⟩ := h.rows x hx
  obtain rfl := Table.eq_of_key_eq hy hx' (hyid.trans hid)
  exact ⟨x, hx, hyid, hsame⟩

theorem Project.Follows.forGood (h : p.Follows p' decided) {eventId : Uuid}
    (hs : p.ForGood eventId) : p'.ForGood eventId := by
  obtain ⟨x, hx, hid, hsettled⟩ := hs
  obtain ⟨x', hx', hid', -, -, hclass⟩ := h.rows x hx
  refine ⟨x', hx', hid'.trans hid, ?_⟩
  cases hclass with
  | same hc => rwa [hc]
  | passed _ hnot _ => exact absurd hsettled hnot
  | decided _ hpending _ => exact absurd hpending hsettled.ne_pending

end follows

/-! ## Deletions and restored objects -/

section spared
variable {p p' p'' : Project}

theorem Project.Alive.sameRows (h : p.Alive) (hsame : p.SameRows p') : p'.Alive := by
  intro x hx halive
  rw [Project.storedObject, hsame.2]
  exact h x (hsame.1 ▸ hx) halive

theorem storedObject_of_ne {o o' : RawObject} (ho : o ∈ p.objects) (hid : o'.id = o.id)
    {object : Uuid} (h : p.storedObject object) (hne : object ≠ o'.id) :
    (p.setObject o').storedObject object := by
  obtain ⟨x, hx, hstored⟩ := h
  obtain ⟨hx, hkey⟩ := Table.find_eq_some.mp hx
  refine ⟨x, Table.find_eq_some.mpr ⟨?_, hkey⟩, hstored⟩
  exact (mem_setObject ho hid).mpr (.inl ⟨hx, fun heq => hne (hkey.symm.trans heq)⟩)

theorem storedObject_of_stored {o o' : RawObject} (ho : o ∈ p.objects) (hid : o'.id = o.id)
    (hs : o'.lifecycle = .stored) : (p.setObject o').storedObject o'.id :=
  ⟨o', Table.find_eq_some.mpr ⟨(mem_setObject ho hid).mpr (.inr rfl), rfl⟩, hs⟩

theorem restore_follows (h : p.Alive) {eventId : Uuid} (hp : p.restore eventId = some p') :
    p.Follows p' none ∧ p'.Alive := by
  obtain ⟨e, he, hp⟩ := Option.bind_eq_some_iff.mp hp
  obtain ⟨o, ho, hp⟩ := Option.bind_eq_some_iff.mp hp
  split_ifs at hp with hstate
  cases hp
  obtain ⟨hemem, heid⟩ := Table.find_eq_some.mp he
  obtain ⟨homem, hoid⟩ := Table.find_eq_some.mp ho
  let o' : RawObject := { o with lifecycle := .stored }
  have hkey : o'.id = o.id := rfl
  have hclass : ∀ x ∈ p.events, x.id = eventId → ClassChange none x .standard := by
    intro x hx hid
    obtain rfl := Table.eq_of_key_eq hx hemem (hid.trans heid.symm)
    refine .passed ?_ ?_ (by rintro ⟨⟩)
    · rw [hstate.2]
      rintro ⟨⟩
    · rw [hstate.2]
      rintro (h | h | h | h) <;> cases h
  have hrestored : (p.setObject o').storedObject o'.id := storedObject_of_stored homem hkey rfl
  have hfollows := follows_setRetentionClass (p := p.setObject o') hclass
  refine ⟨⟨hfollows.rows, hfollows.back⟩, fun x hx halive => ?_⟩
  rcases mem_setRetentionClass.mp hx with ⟨hmem, -⟩ | ⟨e', he', rfl⟩
  · by_cases hobject : x.objectId = o'.id
    · rw [hobject]
      exact hrestored
    · exact storedObject_of_ne homem hkey (h x hmem halive) hobject
  · obtain ⟨he', hid'⟩ := Table.find_eq_some.mp he'
    obtain rfl := Table.eq_of_key_eq he' hemem (hid'.trans heid.symm)
    have hobject : e'.objectId = o'.id := hoid.symm
    change (p.setObject o').storedObject e'.objectId
    rw [hobject]
    exact hrestored

theorem deleteRaw_follows (h : p.Alive) {eventId : Uuid} {c : Cycle}
    (hp : p.deleteRaw eventId c = some p') : p.Follows p' none ∧ p'.Alive := by
  obtain ⟨e, he, hp⟩ := Option.bind_eq_some_iff.mp hp
  obtain ⟨o, ho, hp⟩ := Option.bind_eq_some_iff.mp hp
  split_ifs at hp with hdeleting
  · obtain ⟨q, hq, hp⟩ := Option.bind_eq_some_iff.mp hp
    rw [if_pos (.inl hdeleting)] at hp
    cases hp
    obtain ⟨hobjects, hevents, -⟩ := recordDeletion_eq_some hq
    obtain ⟨hemem, -⟩ := Table.find_eq_some.mp he
    obtain ⟨homem, -⟩ := Table.find_eq_some.mp ho
    have hqmem : o ∈ q.objects := by rwa [hobjects]
    let o' : RawObject := { o with lifecycle := .discarded }
    have hkey : o'.id = o.id := rfl
    have hnot : ¬ p.storedObject o.id := by
      rintro ⟨y, hy, hstored⟩
      obtain ⟨hymem, hyid⟩ := Table.find_eq_some.mp hy
      obtain rfl := Table.eq_of_key_eq hymem homem hyid
      rw [hdeleting] at hstored
      cases hstored
    have hdead : ¬ e.retentionClass.alive := fun halive => by
      have hstored := h e hemem halive
      rw [← (Table.find_eq_some.mp ho).2] at hstored
      exact hnot hstored
    let c' : RetentionClass := if e.retentionClass = .expired then .expired else .discarded
    have hgiven : c' = .expired ∨ c' = .discarded := by
      unfold c'
      split_ifs
      · exact .inl rfl
      · exact .inr rfl
    have hclass : ∀ x ∈ (q.setObject o').events, x.id = e.id → ClassChange none x c' := by
      intro x hx hid
      have hx : x ∈ p.events := hevents ▸ hx
      obtain rfl := Table.eq_of_key_eq hx hemem hid
      refine .passed (fun hpending => hdead ?_) (fun hsettled => hdead hsettled.alive) ?_
      · rw [hpending]
        exact ⟨nofun, nofun, nofun⟩
      · rcases hgiven with hc | hc <;> rw [hc] <;> nofun
    have hfollows := follows_setRetentionClass hclass
    refine ⟨⟨fun x hx => hfollows.rows x (hevents ▸ hx), fun x hx => ?_⟩, fun x hx halive => ?_⟩
    · obtain ⟨y, hy, hid⟩ := hfollows.back x hx
      exact ⟨y, hevents ▸ hy, hid⟩
    · rcases mem_setRetentionClass.mp hx with ⟨hmem, -⟩ | ⟨e', -, rfl⟩
      · have hx : x ∈ p.events := hevents ▸ hmem
        have hstored := h x hx halive
        have hold : q.storedObject x.objectId := by
          rw [Project.storedObject, hobjects]
          exact hstored
        exact storedObject_of_ne hqmem hkey hold fun heq => hnot (heq ▸ hstored)
      · obtain ⟨-, hdiscarded, hexpired⟩ := halive
        rcases hgiven with hc | hc
        · exact absurd hc hexpired
        · exact absurd hc hdiscarded
  · cases hp
    exact ⟨.of_events rfl, h⟩

theorem follows_spared {s s' : State} (h : s.project.Alive) {action : Action}
    (ha : action.spares) (hs : step s action = some s') :
    s.project.Follows s'.project none ∧ s'.project.Alive := by
  rcases rows_step ha hs with hsame | ⟨eventId, q, hq, hsame⟩ | ⟨eventId, c, q, hq, hsame⟩
  · exact ⟨.of_events hsame.1, h.sameRows hsame⟩
  · obtain ⟨hfollows, halive⟩ := restore_follows h hq
    exact ⟨hfollows.congr hsame.1, halive.sameRows hsame⟩
  · obtain ⟨hfollows, halive⟩ := deleteRaw_follows h hq
    exact ⟨hfollows.congr hsame.1, halive.sameRows hsame⟩

end spared

/-- An accepted event is not deleted, and its object is stored. -/
theorem Project.Accepts.alive {p p' : Project} {e : CrashEvent} {o : RawObject}
    (h : p.Accepts p' e o) (ha : p.Alive) : p'.Alive := by
  intro x hx halive
  rw [Project.storedObject, h.objects]
  rcases h.mem_events.mp hx with rfl | hx
  · exact ⟨o, h.object ▸ Table.find_insert_self h.newObject, h.stored⟩
  · obtain ⟨y, hy, hstored⟩ := ha x hx halive
    refine ⟨y, ?_, hstored⟩
    rw [Table.find_insert_of_ne (h.unused x hx)]
    exact hy

/-! ## Publications -/

section publications
variable {p p' : Project}

theorem Project.Alive.group (h : p.Alive) (eventId : Uuid) (g : Grouping) :
    (p.group eventId g).Alive := by
  intro x hx halive
  rcases mem_group.mp hx with ⟨hx, -⟩ | ⟨e, he, rfl⟩
  · exact h x hx halive
  · exact h e (Table.find_eq_some.mp he).1 halive

theorem Project.Alive.setRetentionClass (h : p.Alive) {e : CrashEvent} (he : e ∈ p.events)
    (halive : e.retentionClass.alive) (c : RetentionClass) :
    (p.setRetentionClass e.id c).Alive := by
  intro x hx hx'
  rcases mem_setRetentionClass.mp hx with ⟨hx, -⟩ | ⟨e', he', rfl⟩
  · exact h x hx hx'
  · obtain ⟨he', hid⟩ := Table.find_eq_some.mp he'
    obtain rfl := Table.eq_of_key_eq he' he hid
    exact h e' he halive

theorem Project.AgesOut.alive {q : Project} {aged : CrashEvent} {c : RetentionClass}
    (h : p.AgesOut q aged c) (hone : p.OneObject) (ha : p.Alive)
    (hstored : p.storedObject aged.objectId) : q.Alive := by
  intro x hx halive
  rcases h.mem_events.mp hx with ⟨hx, hne⟩ | rfl
  · exact h.others _ (.inr fun heq => hne (hone x hx aged h.mem heq)) (ha x hx halive)
  · rcases h.given with rfl | rfl
    · exact absurd rfl halive.1
    · exact h.others _ (.inl rfl) hstored

theorem alive_pending : RetentionClass.alive .pending := ⟨nofun, nofun, nofun⟩

theorem alive_retain (hone : p.OneObject) (h : p.Alive) {e : CrashEvent} (he : e ∈ p.events)
    {issue : Option IssueRow} {r : Retention} (hr : p.Samples e issue r) (reservoir : Bool)
    (now : Nat) : (p.retain e.id r reservoir now).Alive := by
  cases hr with
  | unchanged _ => exact h
  | keep c hpending _ => exact h.setRetentionClass he (hpending ▸ alive_pending) c
  | recent _ _ hpending _ _ => exact h.setRetentionClass he (hpending ▸ alive_pending) .recent
  | replace issueId oldest hfull hordinary hbefore =>
    obtain ⟨hmem, -, -, -, hstored⟩ := mem_recentSample.mp hfull.oldest_mem
    obtain ⟨c, hc, hevents, hs, ho⟩ := ageOut_eq hstored reservoir now rfl
    have hage : p.AgesOut _ oldest c := ⟨hmem, hc, hevents, hs, ho⟩
    have hstay := hage.mem_events.mpr (.inl ⟨he, (hfull.oldest_ne he hfull.oldest_mem).symm⟩)
    have halive := hage.alive hone h hstored
    exact halive.setRetentionClass hstay (hfull.pending ▸ alive_pending) .recent
  | late issueId oldest hfull hordinary hbefore =>
    obtain ⟨c, hc, hevents, hs, ho⟩ := ageOut_eq hfull.stored reservoir now rfl
    have hage : p.AgesOut _ e c := ⟨he, hc, hevents, hs, ho⟩
    exact hage.alive hone h hfull.stored

theorem Project.AgesOut.follows {q : Project} {aged : CrashEvent} {c : RetentionClass}
    (h : p.AgesOut q aged c) {decided : Option Uuid} (hc : ClassChange decided aged c) :
    p.Follows q decided := by
  refine Project.Follows.congr (follows_setRetentionClass fun x hx hid => ?_) h.events
  obtain rfl := Table.eq_of_key_eq hx h.mem hid
  exact hc

theorem follows_retain {e : CrashEvent} (he : e ∈ p.events) {issue : Option IssueRow}
    {r : Retention} (hr : p.Samples e issue r) (reservoir : Bool) (now : Nat) :
    p.Follows (p.retain e.id r reservoir now) (some e.id) := by
  have hdecided {c : RetentionClass} (hpending : e.retentionClass = .pending)
      (hc : c ≠ .pending) : ∀ x ∈ p.events, x.id = e.id → ClassChange (some e.id) x c := by
    intro x hx hid
    obtain rfl := Table.eq_of_key_eq hx he hid
    exact .decided rfl hpending hc
  cases hr with
  | unchanged _ => exact .of_events rfl
  | keep c hpending hsettled =>
    exact follows_setRetentionClass (hdecided hpending hsettled.ne_pending)
  | recent _ _ hpending _ _ => exact follows_setRetentionClass (hdecided hpending nofun)
  | replace issueId oldest hfull hordinary hbefore =>
    obtain ⟨hmem, -, -, hrecent, hstored⟩ := mem_recentSample.mp hfull.oldest_mem
    obtain ⟨c, hc, hevents, hs, ho⟩ := ageOut_eq hstored reservoir now rfl
    have hage : p.AgesOut _ oldest c := ⟨hmem, hc, hevents, hs, ho⟩
    have hne := hfull.oldest_ne he hfull.oldest_mem
    have hpassed : ClassChange (some e.id) oldest c := by
      refine .passed ?_ ?_ ?_
      · rw [hrecent]
        nofun
      · rw [hrecent]
        rintro (h | h | h | h) <;> cases h
      · rcases hc with rfl | rfl <;> nofun
    refine ⟨fun x hx => ?_, fun x hx => ?_⟩
    · obtain ⟨y, hy, hyid, hyreceived, hygrouping, hyclass⟩ := (hage.follows hpassed).rows x hx
      by_cases hid : x.id = e.id
      · obtain rfl := Table.eq_of_key_eq hx he hid
        refine ⟨{ y with retentionClass := .recent }, ?_, hyid, hyreceived, hygrouping,
          .decided rfl hfull.pending nofun⟩
        exact mem_setRetentionClass.mpr (.inr ⟨y, Table.find_eq_some.mpr ⟨hy, hyid⟩, rfl⟩)
      · exact ⟨y, mem_setRetentionClass.mpr (.inl ⟨hy, fun heq => hid (hyid.symm.trans heq)⟩),
          hyid, hyreceived, hygrouping, hyclass⟩
    · rcases mem_setRetentionClass.mp hx with ⟨hx, -⟩ | ⟨y, hy, rfl⟩
      · exact (hage.follows hpassed).back x hx
      · exact (hage.follows hpassed).back y (Table.find_eq_some.mp hy).1
  | late issueId oldest hfull hordinary hbefore =>
    obtain ⟨c, hc, hevents, hs, ho⟩ := ageOut_eq hfull.stored reservoir now rfl
    have hage : p.AgesOut _ e c := ⟨he, hc, hevents, hs, ho⟩
    refine hage.follows (.decided rfl hfull.pending ?_)
    rcases hc with rfl | rfl <;> nofun

/-- A pending event leaves its class, for good unless it is an ordinary one. -/
theorem decided_retain (h : p.Alive) {e : CrashEvent} (he : e ∈ p.events)
    (hpending : e.retentionClass = .pending) {issue : Option IssueRow} {r : Retention}
    (hr : p.Samples e issue r) (reservoir : Bool) (now : Nat) :
    (∀ x ∈ (p.retain e.id r reservoir now).events, x.id = e.id → x.retentionClass ≠ .pending) ∧
      ((p.retain e.id r reservoir now).ForGood e.id ∨
        (e.grouping.issueId.isSome ∧ p.Ordinary e issue)) := by
  have hself {c : RetentionClass} (q : Project) (hq : e ∈ q.events) (hc : c ≠ .pending) :
      ∀ x ∈ (q.setRetentionClass e.id c).events, x.id = e.id → x.retentionClass ≠ .pending := by
    intro x hx hid
    rcases mem_setRetentionClass.mp hx with ⟨-, hne⟩ | ⟨y, -, rfl⟩
    · exact absurd hid hne
    · exact hc
  cases hr with
  | unchanged hguard =>
    rcases hguard with hguard | hguard
    · exact absurd (h e he (hpending ▸ alive_pending)) hguard
    · exact absurd hpending hguard
  | keep c _ hsettled =>
    refine ⟨hself p he hsettled.ne_pending,
      .inl ⟨{ e with retentionClass := c }, ?_, rfl, hsettled⟩⟩
    exact mem_setRetentionClass.mpr (.inr ⟨e, Table.find_eq_some.mpr ⟨he, rfl⟩, rfl⟩)
  | recent issueId hissue _ hordinary _ =>
    exact ⟨hself p he nofun, .inr ⟨hissue ▸ rfl, hordinary⟩⟩
  | replace issueId oldest hfull hordinary hbefore =>
    obtain ⟨hmem, -, -, -, hstored⟩ := mem_recentSample.mp hfull.oldest_mem
    obtain ⟨c, hc, hevents, hs, ho⟩ := ageOut_eq hstored reservoir now rfl
    have hage : p.AgesOut _ oldest c := ⟨hmem, hc, hevents, hs, ho⟩
    have hstay := hage.mem_events.mpr (.inl ⟨he, (hfull.oldest_ne he hfull.oldest_mem).symm⟩)
    exact ⟨hself _ hstay nofun, .inr ⟨hfull.issue ▸ rfl, hordinary⟩⟩
  | late issueId oldest hfull hordinary hbefore =>
    obtain ⟨c, hc, hevents, hs, ho⟩ := ageOut_eq hfull.stored reservoir now rfl
    have hage : p.AgesOut _ e c := ⟨he, hc, hevents, hs, ho⟩
    refine ⟨fun x hx hid => ?_, .inr ⟨hfull.issue ▸ rfl, hordinary⟩⟩
    rcases hage.mem_events.mp hx with ⟨-, hne⟩ | rfl
    · exact absurd hid hne
    · rcases hc with rfl | rfl <;> nofun

end publications

end FaultLane.Usage
