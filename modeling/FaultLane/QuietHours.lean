import FaultLane.AlertDeliveriesRuns
import FaultLane.CyclicIntervals

set_option autoImplicit false

/-!
# Quiet hours

What the quiet window of a rule does to its deliveries. The window is read when a delivery is
created, and delays it to the end of the window. Claims ask for the times of the deliveries
alone, so that one that is tried late or again may be sent in a later pass of the window.
-/
namespace FaultLane.AlertDeliveries
open KeyedTable SortDedup TransitionSystem
open JobQueue (Uuid Lease)

/-! ## Windows -/

def minuteMicroseconds : Nat := 60 * microseconds

/-- The window of a rule as its table has it, in minutes of UTC. -/
abbrev QuietWindow := CyclicInterval 1440

namespace QuietWindow
variable (w : QuietWindow)

/-- A time of day inside the window. -/
def Quiet (t : Nat) : Prop := w.Contains (t / minuteMicroseconds)

instance (t : Nat) : Decidable (Quiet w t) := inferInstanceAs (Decidable (w.Contains _))

/-- The delay of a transition at a time of the scheduler's clock. -/
def delay (t : Nat) : Nat :=
  quietDelaySeconds (t / microseconds) (some w.start) (some w.stop) * microseconds

/-- The first time from `t` on that is outside the window. -/
def EndsAt (t e : Nat) : Prop := IsLeast {e | t ≤ e ∧ ¬ Quiet w e} e

end QuietWindow

section windows
variable {w : QuietWindow}

theorem minute_contains {minute : Nat} :
    (if w.start < w.stop then w.start ≤ minute % 1440 ∧ minute % 1440 < w.stop
      else w.start ≤ minute % 1440 ∨ minute % 1440 < w.stop) ↔ w.Contains minute := by
  have hstart := w.start_lt
  have hstop := w.stop_lt
  have hne := w.start_ne_stop
  unfold CyclicInterval.Contains CyclicInterval.length CyclicInterval.offset
  split_ifs <;> omega

theorem minutes_left {minute : Nat} (h : w.Contains minute) :
    (if minute % 1440 < w.stop then w.stop - minute % 1440
      else 1440 - minute % 1440 + w.stop) = w.remaining minute := by
  have hstart := w.start_lt
  have hstop := w.stop_lt
  have hne := w.start_ne_stop
  unfold CyclicInterval.Contains CyclicInterval.length CyclicInterval.offset at h
  unfold CyclicInterval.remaining CyclicInterval.length CyclicInterval.offset
  split_ifs <;> omega

theorem quietDelaySeconds_eq (utc : Nat) :
    quietDelaySeconds utc (some w.start) (some w.stop) =
      if w.Contains (utc / 60) then w.remaining (utc / 60) * 60 - utc % 60 else 0 := by
  unfold quietDelaySeconds
  dsimp only
  simp only [minute_contains]
  by_cases hquiet : w.Contains (utc / 60)
  · rw [if_pos hquiet, if_pos hquiet, minutes_left hquiet]
  · rw [if_neg hquiet, if_neg hquiet]

theorem div_minute (t : Nat) : t / microseconds / 60 = t / minuteMicroseconds :=
  Nat.div_div_eq_div_mul t microseconds 60

theorem delay_of_not_quiet {t : Nat} (h : ¬ QuietWindow.Quiet w t) :
    QuietWindow.delay w t = 0 := by
  have hout : ¬ w.Contains (t / minuteMicroseconds) := h
  unfold QuietWindow.delay
  rw [quietDelaySeconds_eq, div_minute, if_neg hout, Nat.zero_mul]

/-- The fraction of the second is what the delay runs over the end of the window. -/
theorem delay_of_quiet {t : Nat} (h : QuietWindow.Quiet w t) :
    t + QuietWindow.delay w t = w.nextEnd minuteMicroseconds t + t % microseconds := by
  have hin : w.Contains (t / minuteMicroseconds) := h
  have hpos : 0 < w.remaining (t / minuteMicroseconds) := Nat.sub_pos_of_lt hin
  unfold QuietWindow.delay CyclicInterval.nextEnd
  rw [quietDelaySeconds_eq, div_minute, if_pos hin]
  generalize w.remaining (t / minuteMicroseconds) = minutes at hpos ⊢
  unfold minuteMicroseconds microseconds
  omega

theorem endsAt_nextEnd {t : Nat} (h : QuietWindow.Quiet w t) :
    QuietWindow.EndsAt w t (w.nextEnd minuteMicroseconds t) :=
  w.isLeast_nextEnd (by decide) h

/-- A delay to the end of the window, and at most a second more. -/
theorem delay_endsAt {t e : Nat} (h : QuietWindow.Quiet w t) (he : QuietWindow.EndsAt w t e) :
    e ≤ t + QuietWindow.delay w t ∧ t + QuietWindow.delay w t < e + microseconds := by
  have hsum := delay_of_quiet h
  have hfraction : t % microseconds < microseconds := Nat.mod_lt _ (by decide)
  have hend : e = w.nextEnd minuteMicroseconds t := IsLeast.unique he (endsAt_nextEnd h)
  omega

end windows

/-! ## Deliveries that wait -/

/-- The delivery was not tried before a time, and is not tried before it. -/
def State.Waits (s : State) (id : Uuid) (time : Nat) : Prop :=
  (∃ d ∈ s.deliveries, d.id = id) ∧
    ∀ d ∈ s.deliveries, d.id = id →
      d.state = .suppressed ∨ d.state = .pending ∧ time ≤ d.availableAt ∨ time ≤ s.now

section waiting
variable {s s' : State} {id : Uuid} {time : Nat}

theorem State.Waits.due (h : s.Waits id time) {d : Delivery} (hd : d ∈ s.deliveries)
    (hid : d.id = id) (hclaim : d.claimable s.now) : time ≤ s.now := by
  rcases h.2 d hd hid with hsuppressed | ⟨hpending, hlate⟩ | hnow
  · exact absurd hsuppressed (claimable_not_suppressed hclaim)
  · simp only [Delivery.claimable, hpending] at hclaim
    exact hlate.trans hclaim.1
  · exact hnow

theorem State.Waits.claimed (h : s.Waits id time) {locked : List Uuid} {d : Delivery}
    (hd : s.claimed locked = some d) (hid : d.id = id) : time ≤ s.now := by
  obtain ⟨hhead, -⟩ := Option.filter_eq_some_iff.mp hd
  obtain ⟨hmem, hclaim, -⟩ := mem_candidates.mp (List.mem_of_mem_head? hhead)
  exact h.due hmem hid hclaim

theorem State.Waits.put (h : s.Waits id time) {d d' : Delivery} (hd : d ∈ s.deliveries)
    (hnow : d.id = id → time ≤ s.now) (claims : Table Claim.token) :
    State.Waits { s with deliveries := s.putDelivery d.id d', claims := claims } id time := by
  obtain ⟨⟨y, hy, hyid⟩, hrows⟩ := h
  constructor
  · by_cases hyd : y = d
    · subst hyd
      exact ⟨_, putDelivery_mem hd, hyid⟩
    · exact ⟨y, putDelivery_mem_of_ne hd hy hyd, hyid⟩
  · intro x hx hid
    rcases mem_putDelivery_of hx with ⟨hx, -⟩ | rfl
    · exact hrows x hx hid
    · exact .inr (.inr (hnow hid))

theorem claimDelivery_waits (h : s.Waits id time) {locked : List Uuid} {owner token : Uuid}
    (hs : claimDelivery s locked owner token = some s') : s'.Waits id time := by
  obtain ⟨d, hd, hs⟩ := Option.bind_eq_some_iff.mp hs
  obtain ⟨hmem, hclaim, -⟩ := mem_candidates.mp (List.mem_of_mem_head? hd)
  have hnow : d.id = id → time ≤ s.now := fun hid => h.due hmem hid hclaim
  split_ifs at hs
  · cases hs
    exact h.put hmem hnow s.claims
  · cases hs
    exact h.put hmem hnow _

theorem finishDelivery_waits (h : s.Waits id time) {token : Uuid} {result : DeliveryResult}
    (hs : finishDelivery s token result = some s') : s'.Waits id time := by
  obtain ⟨c, -, hs⟩ := Option.bind_eq_some_iff.mp hs
  obtain ⟨d, hd, hs⟩ := Option.bind_eq_some_iff.mp hs
  split_ifs at hs with hheld
  cases hs
  have hmem := (Table.find_eq_some.mp hd).1
  refine h.put hmem (fun hid => ?_) s.claims
  rcases h.2 d hmem hid with hsuppressed | ⟨hpending, -⟩ | hnow
  · simp [Delivery.heldBy, hsuppressed] at hheld
  · simp [Delivery.heldBy, hpending] at hheld
  · exact hnow

/-- A transition changes no delivery but by suppression, and inserts at most one. -/
theorem mem_transition_of {x : Evaluation} {g deliveryId utc : Nat}
    (hfree : s.deliveries.find deliveryId = none) {d : Delivery}
    (hd : d ∈ (s.transition x g deliveryId utc).deliveries) :
    d = s.created x g deliveryId utc ∨ ∃ d₀ ∈ s.deliveries, x.suppressing g d₀ = d := by
  let suppressed : Table Delivery.id := s.deliveries.updateAll (x.suppressing g)
    fun d => (suppressing_kept x g d).1
  have hrows : (s.transition x g deliveryId utc).deliveries =
      State.insertDelivery suppressed (s.created x g deliveryId utc) := rfl
  have hnone : suppressed.find deliveryId = none := by
    rw [Table.find_updateAll, hfree]
    rfl
  rw [hrows, State.insertDelivery] at hd
  split_ifs at hd
  · exact .inr (Table.mem_updateAll.mp hd)
  · rw [Table.mem_insert hnone, Table.mem_updateAll] at hd
    exact hd

theorem suppressing_mem_transition {x : Evaluation} {g deliveryId utc : Nat}
    (hfree : s.deliveries.find deliveryId = none) {d : Delivery} (hd : d ∈ s.deliveries) :
    x.suppressing g d ∈ (s.transition x g deliveryId utc).deliveries := by
  let suppressed : Table Delivery.id := s.deliveries.updateAll (x.suppressing g)
    fun d => (suppressing_kept x g d).1
  have hrows : (s.transition x g deliveryId utc).deliveries =
      State.insertDelivery suppressed (s.created x g deliveryId utc) := rfl
  have hnone : suppressed.find deliveryId = none := by
    rw [Table.find_updateAll, hfree]
    rfl
  have hmem : x.suppressing g d ∈ suppressed := Table.mem_updateAll.mpr ⟨d, hd, rfl⟩
  rw [hrows, State.insertDelivery]
  split_ifs
  · exact hmem
  · exact (Table.mem_insert hnone).mpr (.inr hmem)

theorem transition_waits (h : s.Waits id time) {x : Evaluation} {g deliveryId utc : Nat}
    (hfree : s.deliveries.find deliveryId = none) :
    (s.transition x g deliveryId utc).Waits id time := by
  obtain ⟨⟨y, hy, hyid⟩, hrows⟩ := h
  constructor
  · exact ⟨_, suppressing_mem_transition hfree hy, (suppressing_kept x g y).1.trans hyid⟩
  · intro d hd hid
    rcases mem_transition_of hfree hd with rfl | ⟨d₀, hd₀, rfl⟩
    · have hused : s.deliveries.find deliveryId = some y := by
        have hsame : y.id = deliveryId := hyid.trans hid.symm
        exact Table.find_eq_some.mpr ⟨hy, hsame⟩
      rw [hfree] at hused
      cases hused
    · obtain ⟨hsameid, -, -, -, -, havailable, -⟩ := suppressing_kept x g d₀
      rcases hrows d₀ hd₀ (hsameid.symm.trans hid) with hsuppressed | ⟨hpending, hlate⟩ | hnow
      · left
        unfold Evaluation.suppressing
        split_ifs
        · rfl
        · exact hsuppressed
      · by_cases hsup : x.suppresses g d₀
        · exact .inl (state_suppressing hsup)
        · rw [suppressing_of_not hsup]
          exact .inr (.inl ⟨hpending, hlate⟩)
      · exact .inr (.inr hnow)

theorem commitTransition_waits (h : s.Waits id time) {e deliveryId utc : Nat}
    (hs : commitTransition s e deliveryId utc = some s') : s'.Waits id time := by
  obtain ⟨x, -, hs⟩ := Option.bind_eq_some_iff.mp hs
  by_cases hused : (s.deliveries.find deliveryId).isSome
  · rw [if_pos hused] at hs
    cases hs
  rw [if_neg hused] at hs
  have hfree := Option.not_isSome_iff_eq_none.mp hused
  split at hs
  · cases hs
  · split_ifs at hs <;> cases hs
    · exact h
    · exact transition_waits h hfree
  · split_ifs at hs <;> cases hs
    · exact transition_waits h hfree
    · exact h

theorem State.Waits.step (h : s.Waits id time) {a : Action} (hs : step s a = some s') :
    s'.Waits id time := by
  cases a with
  | tick n =>
    cases hs
    refine ⟨h.1, fun d hd hid => ?_⟩
    rcases h.2 d hd hid with hsuppressed | hpending | hnow
    · exact .inl hsuppressed
    · exact .inr (.inl hpending)
    · exact .inr (.inr (hnow.trans (Nat.le_add_right _ _)))
  | beginEvaluation e scope active start stop =>
    obtain ⟨-, hs⟩ := Option.ite_none_left_eq_some.mp hs
    cases hs
    exact h
  | readCondition e =>
    obtain ⟨x, -, hs⟩ := Option.bind_eq_some_iff.mp hs
    obtain ⟨-, hs⟩ := Option.ite_none_left_eq_some.mp hs
    cases hs
    exact h
  | commitTransition e deliveryId utc => exact commitTransition_waits h hs
  | abandonEvaluation e =>
    cases hs
    exact h
  | claimDelivery locked owner token => exact claimDelivery_waits h hs
  | finishDelivery token result => exact finishDelivery_waits h hs

end waiting
/-! ## What quiet hours do -/

/-- A transition of a rule with the window creates a delivery, at a time of the scheduler's
clock. -/
structure State.Creates (w : QuietWindow) (s s' : State) (x : Evaluation) (clock : Nat)
    (d : Delivery) : Prop where
  evaluation : x ∈ s.evaluations
  window : x.quietStartMinute = some w.start ∧ x.quietEndMinute = some w.stop
  commit : commitTransition s x.id d.id (clock / microseconds) = some s'
  created : d ∈ s'.deliveries

section results
variable {w : QuietWindow} {s s' : State} {x : Evaluation} {clock : Nat} {d : Delivery}

theorem State.Creates.eq_created (h : s.Creates w s' x clock d) :
    ∃ g, d = s.created x g d.id (clock / microseconds) := by
  have hfind : s.evaluations.find x.id = some x := Table.find_eq_some.mpr ⟨h.evaluation, rfl⟩
  have hs := h.commit
  unfold commitTransition at hs
  rw [hfind] at hs
  by_cases hused : (s.deliveries.find d.id).isSome
  · rw [Option.bind_eq_bind, Option.bind_some, if_pos hused] at hs
    cases hs
  rw [Option.bind_eq_bind, Option.bind_some, if_neg hused] at hs
  have hfree := Option.not_isSome_iff_eq_none.mp hused
  have hfresh : d ∉ s.deliveries := by
    intro hd
    have hfound := Table.find_eq_some.mpr ⟨hd, rfl⟩
    rw [hfree] at hfound
    cases hfound
  have hnew : ∀ g, d ∈ (s.transition x g d.id (clock / microseconds)).deliveries →
      d = s.created x g d.id (clock / microseconds) := by
    intro g hd
    rcases mem_transition_of hfree hd with hcreated | ⟨d₀, hd₀, hsame⟩
    · exact hcreated
    · have hid : d₀.id = d.id := by
        rw [← (suppressing_kept x g d₀).1, hsame]
      have hfound := Table.find_eq_some.mpr ⟨hd₀, hid⟩
      rw [hfree] at hfound
      cases hfound
  have hmem := h.created
  split at hs
  · cases hs
  · split_ifs at hs <;> cases hs
    · exact absurd hmem hfresh
    · exact ⟨_, hnew _ hmem⟩
  · split_ifs at hs <;> cases hs
    · exact ⟨_, hnew _ hmem⟩
    · exact absurd hmem hfresh

theorem State.Creates.availableAt (h : s.Creates w s' x clock d) :
    d.availableAt = x.startedAt + QuietWindow.delay w clock := by
  obtain ⟨g, hd⟩ := h.eq_created
  have havailable : d.availableAt = x.startedAt +
      quietDelaySeconds (clock / microseconds) x.quietStartMinute x.quietEndMinute *
        microseconds := by
    rw [hd]
    rfl
  rw [havailable, h.window.1, h.window.2]
  rfl

theorem State.Creates.waits (h : s.Creates w s' x clock d) : s'.Waits d.id d.availableAt := by
  refine ⟨⟨d, h.created, rfl⟩, fun y hy hid => ?_⟩
  have hsame : y = d := Table.eq_of_key_eq hy h.created hid
  obtain ⟨g, hd⟩ := h.eq_created
  have hstate : d.state = .suppressed ∨ d.state = .pending := by
    rw [hd]
    unfold State.created Delivery.new
    dsimp only
    split_ifs
    · exact .inl rfl
    · exact .inr rfl
  rw [hsame]
  rcases hstate with hsuppressed | hpending
  · exact .inl hsuppressed
  · exact .inr (.inl ⟨hpending, Nat.le_refl _⟩)

/-- A delivery of a transition inside the window is claimed only when this pass of the window
is over, by as much as its transaction was old when the clock was read. -/
structure State.PassedBy (w : QuietWindow) (s : State) (x : Evaluation) (clock : Nat)
    (d : Delivery) : Prop where
  available : d.availableAt ≤ s.now
  passed : QuietWindow.Quiet w clock → ∀ e, QuietWindow.EndsAt w clock e →
    x.startedAt + e ≤ s.now + clock

theorem State.Creates.passedBy (h : s.Creates w s' x clock d) {u : State}
    (hu : Reachable step (fun _ => True) s' u) {locked : List Uuid} {d' : Delivery}
    (hd' : u.claimed locked = some d') (hid : d'.id = d.id) : u.PassedBy w x clock d := by
  have hwaits : u.Waits d.id d.availableAt :=
    hu.invariant (fun v => v.Waits d.id d.availableAt) h.waits
      fun v a v' _ hv hs _ => hv.step hs
  have hnow := hwaits.claimed hd' hid
  refine ⟨hnow, fun hquiet e he => ?_⟩
  have hdelay := (delay_endsAt hquiet he).1
  have havailable := h.availableAt
  omega

/-- The delay is zero outside the window, and goes to the end of its pass inside. No delivery is
claimed before the time to which its transition has put it. -/
theorem quietHours_passed (w : QuietWindow) :
    (∀ t, ¬ QuietWindow.Quiet w t →
      quietDelaySeconds (t / microseconds) (some w.start) (some w.stop) = 0) ∧
    (∀ t, QuietWindow.Quiet w t → ∃ e, QuietWindow.EndsAt w t e ∧
      e ≤ t + QuietWindow.delay w t ∧ t + QuietWindow.delay w t < e + microseconds) ∧
    ∀ s s' x clock d, State.Creates w s s' x clock d →
      d.availableAt = x.startedAt + QuietWindow.delay w clock ∧
      ∀ u, Reachable step (fun _ => True) s' u → ∀ locked d', u.claimed locked = some d' →
        d'.id = d.id → u.PassedBy w x clock d := by
  refine ⟨fun t hout => ?_, fun t hquiet => ?_, fun s s' x clock d h => ?_⟩
  · have hdelay := delay_of_not_quiet hout
    exact (Nat.mul_eq_zero.mp hdelay).resolve_right (by decide)
  · have hend := endsAt_nextEnd hquiet
    exact ⟨_, hend, delay_endsAt hquiet hend⟩
  · exact ⟨h.availableAt, fun u hu locked d' hd' hid => h.passedBy hu hd' hid⟩

end results

def nightly : QuietWindow := ⟨60, 120, by decide, by decide, by decide⟩

/-- A quarter of a second past 01:06:40. -/
def night : Nat := 4000250000

theorem quietHours_passed_nightly : ∃ (s s' u : State) (x : Evaluation) (d d' : Delivery),
    s.Creates nightly s' x night d ∧ u.claimed [] = some d' ∧ d'.id = d.id ∧
      u.PassedBy nightly x night d ∧ QuietWindow.Quiet nightly night := by
  let opening : List Action :=
    [.beginEvaluation 11 ⟨1, "quota"⟩ true (some 60) (some 120), .readCondition 11]
  have hsome : (run step (fun _ => True) (.init night) opening).isSome := by decide +kernel
  obtain ⟨s, hs⟩ := Option.isSome_iff_exists.mp hsome
  have hrest : ∀ s ∈ run step (fun _ => True) (.init night) opening,
      ∃ x ∈ s.evaluations.rows, (x.quietStartMinute = some 60 ∧ x.quietEndMinute = some 120) ∧
        ∃ s' ∈ commitTransition s x.id 21 (night / microseconds), ∃ d ∈ s'.deliveries.rows,
          d.id = 21 ∧ ∃ u ∈ step s' (.tick 3200000000), ∃ d' ∈ u.claimed [], d'.id = d.id := by
    decide +kernel
  obtain ⟨x, hx, hwindow, s', hs', d, hd, hid, u, hu, d', hd', hsame⟩ := hrest s hs
  have hcreates : State.Creates nightly s s' x night d := by
    refine ⟨hx, hwindow, ?_, hd⟩
    rw [hid]
    exact hs'
  have hreach : Reachable step (fun _ => True) s' u := (Reachable.init trivial).next hu trivial
  have hafter := ((quietHours_passed nightly).2.2 s s' x night d hcreates).2 u hreach
  exact ⟨s, s', u, x, d, d', hcreates, hd', hsame, hafter [] d' hd' hsame, by decide⟩

/-! ## Claims inside the window -/

/-- The rule has the window in every evaluation, and the scheduler's clock is the database's. -/
def Observes (w : QuietWindow) (rule : Uuid) (s : State) : Action → Prop
  | .beginEvaluation _ scope _ start stop =>
    scope.ruleId = rule → start = some w.start ∧ stop = some w.stop
  | .commitTransition _ _ utc => utc = s.now / microseconds
  | _ => True

instance (w : QuietWindow) (rule : Uuid) (s : State) : DecidablePred (Observes w rule s)
  | .beginEvaluation .. => inferInstanceAs (Decidable (_ → _))
  | .commitTransition .. => inferInstanceAs (Decidable (_ = _))
  | .tick _ | .readCondition _ | .abandonEvaluation _ | .claimDelivery .. | .finishDelivery .. =>
    .isTrue trivial

/-- No delivery of the rule is claimed inside the window. -/
def State.Silent (w : QuietWindow) (rule : Uuid) (s : State) : Prop :=
  ∀ locked d, s.claimed locked = some d → d.scope.ruleId = rule → ¬ QuietWindow.Quiet w s.now

/-- Ten seconds before the window begins. -/
def evening : Nat := 3590 * microseconds

def triggered : List Action :=
  [.beginEvaluation 11 quota true (some 60) (some 120), .readCondition 11,
    .commitTransition 11 21 3590]

def idle : List Action := triggered ++ [.tick (15 * microseconds)]

def retried : List Action :=
  triggered ++ [.claimDelivery [] 7 31, .finishDelivery 31 (.retryable "rate_limited"),
    .tick (15 * microseconds)]

def expired : List Action :=
  triggered ++ [.claimDelivery [] 7 31, .tick (30 * microseconds)]

/-- An idle worker, a retry and an expired lease each send inside the window. -/
theorem not_silent_late :
    (¬ ∀ w rule now s, Reachable (restrict step (Observes w rule)) (fun _ => True) (.init now) s →
      s.Silent w rule) ∧
    ∀ actions ∈ [idle, retried, expired], ∃ s,
      run (restrict step (Observes nightly 1)) (fun _ => True) (.init evening) actions = some s ∧
        ¬ s.Silent nightly 1 := by
  have hruns : ∀ actions ∈ [idle, retried, expired], ∃ s,
      run (restrict step (Observes nightly 1)) (fun _ => True) (.init evening) actions = some s ∧
        ¬ s.Silent nightly 1 := by
    intro actions hactions
    have hsome : ∀ actions ∈ [idle, retried, expired],
        (run (restrict step (Observes nightly 1)) (fun _ => True) (.init evening)
          actions).isSome := by
      decide +kernel
    have hclaim : ∀ actions ∈ [idle, retried, expired],
        ∀ u ∈ run (restrict step (Observes nightly 1)) (fun _ => True) (.init evening) actions,
          ∃ d ∈ u.claimed [], d.scope.ruleId = 1 ∧ QuietWindow.Quiet nightly u.now := by
      decide +kernel
    obtain ⟨s, hs⟩ := Option.isSome_iff_exists.mp (hsome actions hactions)
    obtain ⟨d, hd, hrule, hquiet⟩ := hclaim actions hactions s hs
    exact ⟨s, hs, fun hsilent => hsilent [] d hd hrule hquiet⟩
  refine ⟨fun hall => ?_, hruns⟩
  obtain ⟨s, hs, hnot⟩ := hruns idle (by simp)
  exact hnot (hall nightly 1 evening s (Reachable.of_run (.init trivial) hs))

end FaultLane.AlertDeliveries
