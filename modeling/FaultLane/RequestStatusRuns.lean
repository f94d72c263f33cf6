import FaultLane.RequestStatus

set_option autoImplicit false

/-!
# A request ends as its events do

Along the runs in which each refresh writes what it would read at that moment, the request row
that a transaction has refreshed agrees with the event rows that it sees, and nothing else is
committed before the transaction is.
-/
namespace FaultLane.RequestStatus
open KeyedTable JobQueue TransitionSystem

/-- The columns that a refresh does not set. -/
structure RequestRow.Sound (r : RequestRow) : Prop where
  lease : r.lease.isSome ↔ r.state = .scheduling
  selecting : r.selectionComplete = false → r.state = .pending ∨ r.state = .scheduling
  selected : r.selectionComplete = true → r.lease = none

/-- The columns that a refresh sets, for those rows. -/
structure RequestRow.Counted (r : RequestRow) (rows : List EventRow) : Prop where
  counts : r.counts = Counts.of rows
  state : r.state = r.nextState r.counts
  completedAt : r.completedAt.isSome = r.state.done

structure Transaction.Sound (t : Transaction) (rows : Table EventRow.eventId) : Prop where
  request : ∀ r ∈ t.request, r.Sound
  counted : t.refreshed = true → ∀ r ∈ t.request, r.Counted (t.changes.foldl upsert rows).rows
  unchanged : t.refreshed = true → t.request = none → t.changes = []

structure State.Invariant (s : State) : Prop where
  request : s.request.Sound
  counted : s.request.Counted s.rows.rows
  locked : ∀ t ∈ s.transactions, ∀ t' ∈ s.transactions, t.request.isSome → t'.request.isSome →
    t.id = t'.id
  sound : ∀ t ∈ s.transactions, t.Sound s.rows
  violations : s.violations = 0

section
variable {s s' : State} {r : RequestRow} {t : Transaction} {id : Nat}

/-! ## Rows -/

theorem Counts.of_sum (rows : List EventRow) :
    (Counts.of rows).queued + (Counts.of rows).running + (Counts.of rows).completed +
      (Counts.of rows).failed = (Counts.of rows).selected := by
  induction rows with
  | nil => rfl
  | cons r rows ih =>
    simp only [Counts.of, List.countP_cons, List.length_cons] at *
    cases hr : r.state <;> simp <;> omega

theorem nextState_of_selecting (hr : r.selectionComplete = false) (c : Counts) :
    r.nextState c = r.state := by
  simp [RequestRow.nextState, hr]

theorem nextState_of_selected (hr : r.selectionComplete = true) (c : Counts) :
    r.nextState c ≠ .pending ∧ r.nextState c ≠ .scheduling := by
  unfold RequestRow.nextState
  rw [hr]
  split_ifs with h₀
  · cases h₀
  all_goals exact ⟨nofun, nofun⟩

/-- The next state depends on the columns that a refresh leaves, and on the state while the
selection goes on. -/
theorem nextState_refreshed (d : Desired) (now : Nat) (c : Counts)
    (hd : d.nextState = r.nextState c) : (r.refreshed d now).nextState c = d.nextState := by
  cases hr : r.selectionComplete with
  | false =>
    rw [nextState_of_selecting (r := r.refreshed d now) hr]
    rfl
  | true =>
    rw [hd]
    unfold RequestRow.nextState RequestRow.refreshed
    dsimp only
    rw [hr]
    rfl

theorem RequestRow.Counted.selecting {rows : List EventRow} (hc : r.Counted rows)
    (hs : r.state = .pending ∨ r.state = .scheduling) : r.selectionComplete = false := by
  cases hr : r.selectionComplete with
  | false => rfl
  | true =>
    have hne := nextState_of_selected hr r.counts
    rw [← hc.state] at hne
    rcases hs with hs | hs
    · exact absurd hs hne.1
    · exact absurd hs hne.2

theorem RequestRow.Sound.refreshed (h : r.Sound) {d : Desired} {now : Nat} {c : Counts}
    (hd : d.nextState = r.nextState c) : (r.refreshed d now).Sound := by
  cases hr : r.selectionComplete with
  | false =>
    have hstate : d.nextState = r.state := hd.trans (nextState_of_selecting hr c)
    refine ⟨?_, fun _ => ?_, fun hc => ?_⟩
    · exact h.lease.trans (by rw [← hstate]; rfl)
    · rw [show (r.refreshed d now).state = r.state from hstate]
      exact h.selecting hr
    · cases hr.symm.trans hc
  | true =>
    have hne := nextState_of_selected hr c
    rw [← hd] at hne
    refine ⟨⟨fun hl => ?_, fun hs => absurd hs hne.2⟩, fun hc => ?_, fun _ => h.selected hr⟩
    · rw [show (r.refreshed d now).lease = none from h.selected hr] at hl
      cases hl
    · cases hr.symm.trans hc

theorem RequestRow.refreshed_counted {d : Desired} {now : Nat} {rows : List EventRow}
    (hd : d = ⟨Counts.of rows, r.nextState (Counts.of rows)⟩) :
    (r.refreshed d now).Counted rows := by
  subst hd
  have hnext := nextState_refreshed (r := r) ⟨Counts.of rows, r.nextState (Counts.of rows)⟩ now
    (Counts.of rows) rfl
  refine ⟨rfl, hnext.symm, ?_⟩
  unfold RequestRow.refreshed
  dsimp only
  cases (r.nextState (Counts.of rows)).done <;> rfl

theorem RequestRow.Sound.fits (h : r.Sound) {rows : List EventRow} (hc : r.Counted rows) :
    r.Fits := by
  refine ⟨h.lease, hc.completedAt, ?_⟩
  rw [hc.counts]
  exact Counts.of_sum rows

/-! ## Transactions -/

theorem mem_put {t₀ x : Transaction} (hf : s.transactions.find id = some t₀) (hid : t.id = id) :
    x ∈ (s.put t).transactions ↔ (x ∈ s.transactions ∧ x.id ≠ id) ∨ x = t := by
  have hid₀ := (Table.find_eq_some.mp hf).2
  have heq : { t with id := t₀.id } = t := by
    rw [hid₀, ← hid]
  simp only [State.put, Table.mem_modify, hid, hf, Option.some.injEq, exists_eq_left', heq]

theorem State.Invariant.put {t₀ : Transaction} (h : s.Invariant)
    (hf : s.transactions.find id = some t₀) (hid : t.id = id) (ht : t.Sound s.rows)
    (hlock : t.request.isSome → ∀ x ∈ s.transactions, x.request.isSome → x.id = id) :
    (s.put t).Invariant := by
  refine ⟨h.request, h.counted, fun x hx y hy hxr hyr => ?_, fun x hx => ?_, h.violations⟩
  · rcases (mem_put hf hid).mp hx with ⟨hxm, hxid⟩ | hxt
    · rcases (mem_put hf hid).mp hy with ⟨hym, -⟩ | hyt
      · exact h.locked x hxm y hym hxr hyr
      · exact absurd (hlock (hyt ▸ hyr) x hxm hxr) hxid
    · rcases (mem_put hf hid).mp hy with ⟨hym, hyid⟩ | hyt
      · exact absurd (hlock (hxt ▸ hxr) y hym hyr) hyid
      · rw [hxt, hyt]
  · rcases (mem_put hf hid).mp hx with ⟨hx, -⟩ | rfl
    · exact h.sound x hx
    · exact ht

theorem State.Invariant.delete (h : s.Invariant) (id : Nat) :
    State.Invariant { s with transactions := s.transactions.delete id } :=
  ⟨h.request, h.counted,
    fun x hx y hy => h.locked x (Table.mem_delete.mp hx).1 y (Table.mem_delete.mp hy).1,
    fun x hx => h.sound x (Table.mem_delete.mp hx).1, h.violations⟩

theorem State.Invariant.requestOf (h : s.Invariant) (ht : t ∈ s.transactions) :
    (s.requestOf t).Sound := by
  unfold State.requestOf
  cases hr : t.request with
  | none => exact h.request
  | some r => exact (h.sound t ht).request r hr

/-- The lock that a transaction has is not another's. -/
theorem State.Invariant.other (h : s.Invariant) (hf : s.transactions.find id = some t)
    (hr : t.request.isSome) : ∀ x ∈ s.transactions, x.request.isSome → x.id = id := by
  obtain ⟨ht, hid⟩ := Table.find_eq_some.mp hf
  exact fun x hx hxr => (h.locked x hx t ht hxr hr).trans hid

/-! ## Steps -/

theorem State.Invariant.claimRequest (h : s.Invariant) {holder : Holder}
    (hs : RequestStatus.claimRequest s holder = some s') : s'.Invariant := by
  unfold RequestStatus.claimRequest at hs
  dsimp only at hs
  split at hs
  · next hc =>
    cases hs
    have hselecting : s.request.selectionComplete = false := by
      refine h.counted.selecting ?_
      rcases hc.2 with ⟨hp, -⟩ | ⟨hp, -⟩
      · exact .inl hp
      · exact .inr hp
    refine ⟨⟨⟨fun _ => rfl, fun _ => rfl⟩, fun _ => .inr rfl, fun hcomplete => ?_⟩,
      ⟨h.counted.counts, ?_, rfl⟩, h.locked, h.sound, h.violations⟩
    · cases hselecting.symm.trans hcomplete
    · refine (nextState_of_selecting ?_ _).symm
      exact hselecting
  · cases hs

theorem State.Invariant.change (h : s.Invariant) {eventId : Uuid} {u : RowUpdate}
    (hs : RequestStatus.change s id eventId u = some s') : s'.Invariant := by
  obtain ⟨t, ht, hs⟩ := Option.bind_eq_some_iff.mp hs
  obtain ⟨r, -, hs⟩ := Option.bind_eq_some_iff.mp hs
  split_ifs at hs with hc
  cases hs
  refine h.put ht (Table.find_eq_some.mp ht).2 ⟨fun r hr => ?_, nofun, nofun⟩ fun hr => ?_
  · rw [hc.2.1] at hr
    cases hr
  · rw [hc.2.1] at hr
    cases hr

theorem State.Invariant.lockRequest (h : s.Invariant) {holder : Holder}
    (hs : RequestStatus.lockRequest s id holder = some s') : s'.Invariant := by
  obtain ⟨t, ht, hs⟩ := Option.bind_eq_some_iff.mp hs
  dsimp only at hs
  split_ifs at hs with hc
  obtain ⟨hunlocked, -, -, hchanges, -⟩ := hc
  cases hs
  refine h.put ht (Table.find_eq_some.mp ht).2 ⟨?_, fun _ => ?_, nofun⟩
    fun _ x hx hxr => hunlocked x hx hxr
  · rintro r ⟨⟩
    exact h.request
  · have hview : t.changes.foldl upsert s.rows = s.rows := by
      rw [hchanges]
      rfl
    rintro r ⟨⟩
    rw [hview]
    exact h.counted

theorem State.Invariant.schedule (h : s.Invariant) {eventIds : List Uuid}
    (hs : RequestStatus.schedule s id eventIds = some s') : s'.Invariant := by
  obtain ⟨t, ht, hs⟩ := Option.bind_eq_some_iff.mp hs
  dsimp only at hs
  split_ifs at hs with hc
  cases hs
  obtain ⟨htm, hid⟩ := Table.find_eq_some.mp ht
  exact h.put ht hid ⟨(h.sound t htm).request, by rintro ⟨⟩, by rintro ⟨⟩⟩ fun _ =>
    h.other ht hc.1

theorem RequestRow.endPage_sound (r : RequestRow) (truncated : Bool) :
    RequestRow.Sound (if truncated then r.releasePage else r.completeSelection) := by
  cases truncated with
  | true => exact ⟨⟨nofun, nofun⟩, fun _ => .inl rfl, fun _ => rfl⟩
  | false => exact ⟨⟨nofun, nofun⟩, nofun, fun _ => rfl⟩

theorem State.Invariant.endPage (h : s.Invariant) {truncated : Bool}
    (hs : RequestStatus.endPage s id truncated = some s') : s'.Invariant := by
  obtain ⟨t, ht, hs⟩ := Option.bind_eq_some_iff.mp hs
  obtain ⟨r, hr, hs⟩ := Option.bind_eq_some_iff.mp hs
  split at hs
  · cases hs
    have hlock := h.other ht (Option.isSome_iff_exists.mpr ⟨r, hr⟩)
    refine h.put ht (Table.find_eq_some.mp ht).2 ⟨?_, nofun, nofun⟩ fun _ => hlock
    rintro x ⟨⟩
    exact r.endPage_sound truncated
  · cases hs

theorem State.Invariant.startRefresh (h : s.Invariant)
    (hs : RequestStatus.startRefresh s id = some s') : s'.Invariant := by
  obtain ⟨t, ht, hs⟩ := Option.bind_eq_some_iff.mp hs
  split_ifs at hs
  cases hs
  obtain ⟨htm, hid⟩ := Table.find_eq_some.mp ht
  have hsound := h.sound t htm
  exact h.put ht hid ⟨hsound.request, hsound.counted, hsound.unchanged⟩ fun hr => h.other ht hr

theorem State.Invariant.failSchedule (h : s.Invariant) {code : String}
    (hs : RequestStatus.failSchedule s id code = some s') : s'.Invariant := by
  obtain ⟨t, ht, hs⟩ := Option.bind_eq_some_iff.mp hs
  obtain ⟨r, hr, hs⟩ := Option.bind_eq_some_iff.mp hs
  obtain ⟨htm, hid⟩ := Table.find_eq_some.mp ht
  have hsound := h.sound t htm
  have hlock := h.other ht (Option.isSome_iff_exists.mpr ⟨r, hr⟩)
  split_ifs at hs with hc hretry
  · cases hs
    refine h.put ht hid ⟨?_, fun hf => ?_, nofun⟩ fun _ => hlock
    · rintro x ⟨⟩
      exact ⟨⟨nofun, nofun⟩, fun _ => .inl rfl, fun _ => rfl⟩
    · rintro x ⟨⟩
      have hcounted := hsound.counted hf r hr
      have hselecting := hcounted.selecting (.inr hc.1)
      refine ⟨hcounted.counts, ?_, ?_⟩
      · refine (nextState_of_selecting ?_ _).symm
        exact hselecting
      · have hdone := hcounted.completedAt
        rw [hc.1] at hdone
        exact hdone
  · cases hs
    refine h.put ht hid ⟨?_, nofun, nofun⟩ fun _ => hlock
    rintro x ⟨⟩
    exact ⟨⟨nofun, nofun⟩, nofun, fun _ => rfl⟩

theorem State.Invariant.finishRefresh (h : s.Invariant) (hu : UpToDate s (.finishRefresh id))
    (hs : RequestStatus.finishRefresh s id = some s') : s'.Invariant := by
  obtain ⟨t, ht, hs⟩ := Option.bind_eq_some_iff.mp hs
  obtain ⟨d, hd, hs⟩ := Option.bind_eq_some_iff.mp hs
  obtain ⟨htm, hid⟩ := Table.find_eq_some.mp ht
  have hdesired : d = s.desired t := Option.some.inj (hd.symm.trans (hu t ht))
  have hsound : ((s.requestOf t).refreshed d s.now).Sound :=
    (h.requestOf htm).refreshed (c := Counts.of (s.view t).rows) (by rw [hdesired]; rfl)
  have hcounted : ((s.requestOf t).refreshed d s.now).Counted (s.view t).rows :=
    RequestRow.refreshed_counted hdesired
  dsimp only at hs
  split_ifs at hs with hunlocked hfits
  · cases hs
    refine h.put ht hid ⟨?_, fun _ => ?_, nofun⟩ fun _ x hx hxr => hunlocked x hx hxr
    · rintro x ⟨⟩
      exact hsound
    · rintro x ⟨⟩
      exact hcounted
  · exact absurd (hsound.fits hcounted) hfits

/-- A transaction that is committed is the only one that has changed anything to be counted. -/
theorem State.Invariant.commit (h : s.Invariant) (hs : RequestStatus.commit s id = some s') :
    s'.Invariant := by
  obtain ⟨t, ht, hs⟩ := Option.bind_eq_some_iff.mp hs
  obtain ⟨htm, hid⟩ := Table.find_eq_some.mp ht
  have hsound := h.sound t htm
  split_ifs at hs with hc
  cases hs
  cases hr : t.request with
  | none =>
    have hview : s.view t = s.rows := by
      unfold State.view
      rw [hsound.unchanged hc.1 hr]
      rfl
    have hrequest : s.requestOf t = s.request := by
      unfold State.requestOf
      rw [hr]
      rfl
    rw [hview, hrequest]
    exact h.delete id
  | some r =>
    have hrequest : s.requestOf t = r := by
      unfold State.requestOf
      rw [hr]
      rfl
    have hother := h.other ht (by rw [hr]; rfl)
    have hfree : ∀ x ∈ s.transactions.delete id, x.request = none := fun x hx => by
      obtain ⟨hx, hne⟩ := Table.mem_delete.mp hx
      by_contra hsome
      exact hne (hother x hx (Option.isSome_iff_ne_none.mpr hsome))
    refine ⟨?_, ?_, fun x hx y hy hxr => ?_, fun x hx => ⟨fun q hq => ?_, fun _ q hq => ?_, ?_⟩,
      h.violations⟩
    · rw [hrequest]
      exact hsound.request r hr
    · rw [hrequest]
      exact hsound.counted hc.1 r hr
    · rw [hfree x hx] at hxr
      cases hxr
    · rw [hfree x hx] at hq
      cases hq
    · rw [hfree x hx] at hq
      cases hq
    · exact (h.sound x (Table.mem_delete.mp hx).1).unchanged

theorem State.Invariant.begin (h : s.Invariant) (hs : RequestStatus.begin s id = some s') :
    s'.Invariant := by
  unfold RequestStatus.begin at hs
  split_ifs at hs with hf
  cases hs
  have hmem : ∀ x, x ∈ s.transactions.insert ⟨id, [], none, none, true⟩ ↔
      x = ⟨id, [], none, none, true⟩ ∨ x ∈ s.transactions :=
    fun x => Table.mem_insert (Option.not_isSome_iff_eq_none.mp hf)
  refine ⟨h.request, h.counted, fun x hx y hy hxr hyr => ?_, fun x hx => ?_, h.violations⟩
  · rcases (hmem x).mp hx with rfl | hx
    · cases hxr
    · rcases (hmem y).mp hy with rfl | hy
      · cases hyr
      · exact h.locked x hx y hy hxr hyr
  · rcases (hmem x).mp hx with rfl | hx
    · exact ⟨by rintro _ ⟨⟩, fun _ => by rintro _ ⟨⟩, fun _ _ => rfl⟩
    · exact h.sound x hx

theorem State.Invariant.step (h : s.Invariant) {action : Action} (hu : UpToDate s action)
    (hs : RequestStatus.step s action = some s') : s'.Invariant := by
  cases action with
  | tick seconds =>
    cases hs
    exact ⟨h.request, h.counted, h.locked, h.sound, h.violations⟩
  | claimRequest holder => exact h.claimRequest hs
  | begin id => exact h.begin hs
  | change id eventId update => exact h.change hs
  | lockRequest id holder => exact h.lockRequest hs
  | schedule id eventIds => exact h.schedule hs
  | endPage id truncated => exact h.endPage hs
  | failSchedule id code => exact h.failSchedule hs
  | startRefresh id => exact h.startRefresh hs
  | finishRefresh id => exact h.finishRefresh hu hs
  | commit id => exact h.commit hs
  | rollback id =>
    unfold RequestStatus.step RequestStatus.rollback at hs
    dsimp only at hs
    split_ifs at hs
    cases hs
    exact h.delete id

theorem State.Invariant.init : State.Invariant .init where
  request := ⟨⟨nofun, nofun⟩, fun _ => .inl rfl, nofun⟩
  counted := ⟨rfl, rfl, rfl⟩
  locked t ht := absurd ht (Table.not_mem_empty t)
  sound t ht := absurd ht (Table.not_mem_empty t)
  violations := rfl

/-! ## What the rows say -/

theorem nextState_of_done (hr : r.selectionComplete = true) {c : Counts}
    (hopen : c.queued + c.running = 0)
    (hsum : c.queued + c.running + c.completed + c.failed = c.selected) :
    r.nextState c =
      if 0 < c.completed then
        if r.failureCode.isSome ∨ 0 < c.failed then .partially else .completed
      else if r.failureCode.isSome ∨ 0 < c.failed then .failed else .completed := by
  unfold RequestRow.nextState
  rw [hr, if_neg (by decide)]
  cases hf : r.failureCode.isSome with
  | true =>
    by_cases hc : 0 < c.completed
    · rw [if_pos ⟨rfl, hc⟩, if_pos hc, if_pos (.inl rfl)]
    · rw [if_neg (fun h => hc h.2), if_pos rfl, if_neg hc, if_pos (.inl rfl)]
  | false =>
    rw [if_neg (fun h => nomatch h.1), if_neg Bool.false_ne_true, if_neg (c := 0 < c.queued + _) (by omega)]
    simp only [Bool.false_eq_true, false_or]
    split_ifs <;> first | rfl | omega

/-- With all rows done, the next state is the outcome. -/
theorem State.Invariant.outcome (h : s.Invariant) (hcomplete : s.request.selectionComplete = true)
    (hdone : ∀ r ∈ s.rows, r.state.done) :
    s.request.state = s.outcome ∧ s.request.state.active = false := by
  have hcompleted : 0 < (Counts.of s.rows.rows).completed ↔
      ∃ r ∈ s.rows.rows, r.state = .completed := by
    simp only [Counts.of, List.countP_pos_iff, decide_eq_true_eq]
  have hfailed : 0 < (Counts.of s.rows.rows).failed ↔ ∃ r ∈ s.rows.rows, r.state = .failed := by
    simp only [Counts.of, List.countP_pos_iff, decide_eq_true_eq]
  have hopen : (Counts.of s.rows.rows).queued + (Counts.of s.rows.rows).running = 0 := by
    have hqueued : (Counts.of s.rows.rows).queued = 0 := by
      refine List.countP_eq_zero.mpr fun r hr hq => ?_
      have hd := hdone r hr
      rw [of_decide_eq_true hq] at hd
      cases hd
    have hrunning : (Counts.of s.rows.rows).running = 0 := by
      refine List.countP_eq_zero.mpr fun r hr hq => ?_
      have hd := hdone r hr
      rw [of_decide_eq_true hq] at hd
      cases hd
    omega
  have hstate := h.counted.state
  rw [h.counted.counts, nextState_of_done hcomplete hopen (Counts.of_sum _)] at hstate
  have houtcome : s.request.state = s.outcome := by
    unfold State.outcome
    simp only [← hcompleted, ← hfailed]
    exact hstate
  refine ⟨houtcome, ?_⟩
  rw [houtcome]
  unfold State.outcome
  split_ifs <;> rfl

theorem State.Invariant.accurate (h : s.Invariant) : s.Accurate where
  violations := h.violations
  settled _ hcomplete hdone :=
    ⟨(h.outcome hcomplete hdone).1, (h.outcome hcomplete hdone).2, h.counted.counts⟩

theorem accurate_of_reachable
    (h : Reachable (restrict RequestStatus.step UpToDate) (fun _ => True) .init s) :
    s.Accurate :=
  State.Invariant.accurate <| h.invariant State.Invariant .init fun _ _ _ _ hi hs _ =>
    hi.step (restrict_eq_some.mp hs).1 (restrict_eq_some.mp hs).2

end

/-- A request for the events 1 and 2, both of which a worker has claimed. -/
def bothRunning : List Action :=
  [.claimRequest ⟨7, 71⟩, .begin 1, .lockRequest 1 ⟨7, 71⟩, .schedule 1 [1, 2], .endPage 1 false,
    .startRefresh 1, .finishRefresh 1, .commit 1,
    .begin 2, .change 2 1 .markRunning, .startRefresh 2, .finishRefresh 2, .commit 2,
    .begin 3, .change 3 2 .markRunning, .startRefresh 3, .finishRefresh 3, .commit 3]

def publishApart : List Action := bothRunning ++
  [.begin 4, .change 4 1 .complete, .startRefresh 4, .finishRefresh 4, .commit 4,
    .begin 5, .change 5 2 .complete, .startRefresh 5, .finishRefresh 5, .commit 5]

/-- The second refresh starts before the first publication is committed. -/
def publishTogether : List Action := bothRunning ++
  [.begin 4, .change 4 1 .complete, .begin 5, .change 5 2 .complete, .startRefresh 4,
    .startRefresh 5, .finishRefresh 4, .commit 4, .finishRefresh 5, .commit 5]

theorem accurate_publishApart : ∃ s,
    Reachable (restrict step UpToDate) (fun _ => True) .init s ∧ s.Accurate ∧
      s.transactions.rows = [] ∧ s.request.state = .completed := by
  have hrun : (run (restrict step UpToDate) (fun _ => True) .init publishApart).isSome := by
    decide +kernel
  obtain ⟨s, hs⟩ := Option.isSome_iff_exists.mp hrun
  have hreach := Reachable.of_run (.init trivial) hs
  have hend : ∀ u ∈ run (restrict step UpToDate) (fun _ => True) .init publishApart,
      u.transactions.rows = [] ∧ u.request.state = .completed := by
    decide +kernel
  exact ⟨s, hreach, accurate_of_reachable hreach, hend s hs⟩

/-- Both events are completed, and the request stays running. -/
theorem not_accurate_publishTogether :
    ¬ ∀ s, Reachable step (fun _ => True) .init s → s.Accurate := by
  intro haccurate
  have hrun : (run step (fun _ => True) .init publishTogether).isSome := by decide +kernel
  obtain ⟨s, hs⟩ := Option.isSome_iff_exists.mp hrun
  have hend : ∀ u ∈ run step (fun _ => True) .init publishTogether,
      u.transactions.rows = [] ∧ u.request.selectionComplete = true ∧
        (∀ r ∈ u.rows.rows, r.state.done) ∧ u.request.state = .running := by
    decide +kernel
  obtain ⟨hnone, hcomplete, hdone, hrunning⟩ := hend s hs
  have hactive := ((haccurate s (Reachable.of_run (.init trivial) hs)).settled hnone hcomplete
    hdone).2.1
  rw [hrunning] at hactive
  cases hactive

end FaultLane.RequestStatus
