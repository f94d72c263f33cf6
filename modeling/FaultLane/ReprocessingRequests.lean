import FaultLane.ReprocessingSafety

set_option autoImplicit false

/-!
# What a reprocessing request can rely on

Generations only grow. Along the runs whose releases are benign, an unfinished request has
a job to finish it, and a finished one was finished by a run that was claimed after it.
-/
namespace FaultLane.Reprocessing
open KeyedTable JobQueue TransitionSystem

section
variable {e e' : Event} {a : Attempt} {s s' : State}

def Event.Grows (e e' : Event) : Prop :=
  e'.id = e.id ∧ e.requestedGeneration ≤ e'.requestedGeneration ∧
    e.completedGeneration ≤ e'.completedGeneration

/-- No event goes away, and no generation falls. -/
def State.Grows (s s' : State) : Prop := ∀ e ∈ s.events, ∃ e' ∈ s'.events, e.Grows e'

theorem Event.Grows.refl (e : Event) : e.Grows e := ⟨rfl, le_rfl, le_rfl⟩

theorem Event.Grows.trans {e'' : Event} (h : e.Grows e') (h' : e'.Grows e'') : e.Grows e'' :=
  ⟨h'.1.trans h.1, h.2.1.trans h'.2.1, h.2.2.trans h'.2.2⟩

theorem State.Grows.refl (s : State) : s.Grows s := fun e he => ⟨e, he, .refl e⟩

theorem State.Grows.trans {s'' : State} (h : s.Grows s') (h' : s'.Grows s'') : s.Grows s'' := by
  intro e he
  obtain ⟨e', he', hg⟩ := h e he
  obtain ⟨e'', he'', hg'⟩ := h' e' he'
  exact ⟨e'', he'', hg.trans hg'⟩

theorem State.Grows.put (he : e ∈ s.events) (hg : e.Grows e') : s.Grows (s.put e') := by
  intro x hx
  by_cases hxe : x.id = e.id
  · obtain rfl := Table.eq_of_key_eq hx he hxe
    exact ⟨e', (mem_put he hg.1).mpr (.inr rfl), hg⟩
  · exact ⟨x, (mem_put he hg.1).mpr (.inl ⟨hx, hxe⟩), .refl x⟩

theorem State.Grows.putAll {f : Event → Event} (hf : ∀ e : Event, e.Grows (f e))
    {eventIds : List Uuid} (hs : State.putAll f eventIds s = some s') : s.Grows s' := by
  induction eventIds generalizing s with
  | nil =>
    cases hs
    exact .refl _
  | cons id rest ih =>
    obtain ⟨e, he, hs⟩ := Option.bind_eq_some_iff.mp hs
    exact (State.Grows.put (Table.find_eq_some.mp he).1 (hf e)).trans (ih hs)

/-! ## Statements -/

theorem Event.Grows.updateRequests (p : RequestEvent → Prop) [DecidablePred p]
    (state : RequestState) : e.Grows (e.updateRequests p state) := ⟨rfl, le_rfl, le_rfl⟩

theorem Event.Grows.schedule {requestId now clock : Nat} :
    e.Grows (e.schedule requestId now clock) := by
  refine ⟨Event.schedule_id, Event.requested_le_schedule, ?_⟩
  unfold Event.schedule
  split <;> exact le_rfl

theorem Event.Grows.markRunning (target : Nat) : e.Grows (e.markRunning target) := by
  unfold Event.markRunning
  split
  · exact .refl e
  · exact .updateRequests _ _

theorem Event.Grows.markQueued (target : Nat) : e.Grows (e.markQueued target) := by
  unfold Event.markQueued
  split
  · exact .refl e
  · exact .updateRequests _ _

theorem Event.Grows.endRun (target : Nat) (state : RequestState) :
    e.Grows (e.endRun target state) := by
  unfold Event.endRun Event.markDone
  split <;> exact ⟨rfl, le_rfl, le_max_left _ _⟩

theorem Event.Grows.reconcile {requestIds : List Uuid} {now : Nat} :
    e.Grows (e.reconcile requestIds now) := by
  unfold Event.reconcile
  split
  · exact ⟨rfl, le_rfl, le_rfl⟩
  · exact .refl e

theorem Event.Grows.setJob (h : e.Grows e') (kind : EventJob) (j : Job) :
    e.Grows (e'.setJob kind j) := by
  cases kind <;> exact h

theorem Event.Grows.endJob (h : e.Grows e') {e'' : Event} {now : Nat} {done : Job → Option Job}
    {j : Job} (he : e'.endJob a now done j = some e'') : e.Grows e'' := by
  obtain ⟨j', -, rfl⟩ := Option.map_eq_some_iff.mp he
  exact h.setJob .processCrash j'

/-! ## Steps -/

/-- A statement of an attempt changes the event of the attempt, and its job. -/
theorem State.Grows.attempt {token : Uuid} {j : Job} (ht : s.attempt token = some (a, e, j))
    (hg : e.Grows e') : s.Grows (s.put e') :=
  .put (attempt_eq_some ht).event hg

theorem grows_receive {eventId : Uuid} (hs : receive s eventId = some s') : s.Grows s' := by
  unfold receive at hs
  split_ifs at hs with hf
  cases hs
  have hnone : s.events.find eventId = none := Option.not_isSome_iff_eq_none.mp hf
  exact fun e he => ⟨e, (Table.mem_insert hnone).mpr (.inr he), .refl e⟩

theorem grows_beginClaim {id : Nat} (hs : beginClaim s id = some s') : s.Grows s' := by
  unfold beginClaim at hs
  split_ifs at hs
  cases hs
  exact .refl s

theorem grows_claim {id : Nat} {kind : EventJob} {eventId : Uuid} {holder : Holder}
    (hs : claim s id kind eventId holder = some s') : s.Grows s' := by
  obtain ⟨claimer, -, hs⟩ := Option.bind_eq_some_iff.mp hs
  obtain ⟨target, -, hs⟩ := Option.bind_eq_some_iff.mp hs
  obtain ⟨e, he, hs⟩ := Option.bind_eq_some_iff.mp hs
  obtain ⟨j, -, hs⟩ := Option.bind_eq_some_iff.mp hs
  obtain ⟨j', -, hs⟩ := Option.bind_eq_some_iff.mp hs
  split_ifs at hs
  cases hs
  exact State.Grows.put (Table.find_eq_some.mp he).1 ((Event.Grows.markRunning target).setJob kind j')

theorem grows_publishCrashResult {token : Uuid} (hs : publishCrashResult s token = some s') :
    s.Grows s' := by
  obtain ⟨⟨a, e, j⟩, ht, hs⟩ := Option.bind_eq_some_iff.mp hs
  obtain ⟨j', -, hs⟩ := Option.bind_eq_some_iff.mp hs
  split at hs
  · obtain ⟨e', he', hs⟩ := Option.bind_eq_some_iff.mp hs
    cases hs
    exact .attempt ht (.endJob (.endRun _ _) he')
  · cases hs

theorem grows_finishDeletion {token : Uuid} (hs : finishDeletion s token = some s') :
    s.Grows s' := by
  obtain ⟨⟨a, e, j⟩, ht, hs⟩ := Option.bind_eq_some_iff.mp hs
  obtain ⟨j', -, hs⟩ := Option.bind_eq_some_iff.mp hs
  obtain ⟨j'', -, hs⟩ := Option.bind_eq_some_iff.mp hs
  split at hs
  · cases hs
    exact .attempt ht ((Event.Grows.refl e).setJob .deleteRaw j'')
  · cases hs

theorem grows_finishFailure {token : Uuid} {quarantine resource : Bool} {code : String}
    (hs : finishFailure s token quarantine resource code = some s') : s.Grows s' := by
  obtain ⟨⟨a, e, j⟩, ht, hs⟩ := Option.bind_eq_some_iff.mp hs
  obtain ⟨j', -, hs⟩ := Option.bind_eq_some_iff.mp hs
  split at hs
  · obtain ⟨e', he', hs⟩ := Option.bind_eq_some_iff.mp hs
    cases hs
    exact .attempt ht (.endJob (.endRun _ _) he')
  · obtain ⟨j'', -, hs⟩ := Option.bind_eq_some_iff.mp hs
    cases hs
    exact .attempt ht ((Event.Grows.refl e).setJob .deleteRaw j'')

theorem grows_perform {action : Action} (hs : perform s action = some s') : s.Grows s' := by
  cases action with
  | tick seconds =>
    cases hs
    exact .refl s
  | receive eventId => exact grows_receive hs
  | enqueueDeletion eventId =>
    obtain ⟨e, he, hs⟩ := Option.bind_eq_some_iff.mp hs
    cases hs
    exact .put (Table.find_eq_some.mp he).1 ⟨rfl, le_rfl, le_rfl⟩
  | schedule requestId eventIds => exact .putAll (fun _ => .schedule) hs
  | beginClaim id => exact grows_beginClaim hs
  | claim id kind eventId holder => exact grows_claim hs
  | heartbeat token =>
    obtain ⟨⟨a, e, j⟩, ht, hs⟩ := Option.bind_eq_some_iff.mp hs
    obtain ⟨j', -, hs⟩ := Option.bind_eq_some_iff.mp hs
    cases hs
    exact .attempt ht ((Event.Grows.refl e).setJob a.kind j')
  | releaseJob token seconds resource dependency code =>
    obtain ⟨⟨a, e, j⟩, ht, hs⟩ := Option.bind_eq_some_iff.mp hs
    obtain ⟨j', -, hs⟩ := Option.bind_eq_some_iff.mp hs
    cases hs
    exact .attempt ht ((Event.Grows.markQueued a.target).setJob a.kind j')
  | publishCrashResult token => exact grows_publishCrashResult hs
  | finishDeletion token => exact grows_finishDeletion hs
  | finishFailure token quarantine resource code => exact grows_finishFailure hs
  | reconcile eventIds requestIds => exact .putAll (fun _ => .reconcile) hs

theorem grows_step {action : Action} (hs : Reprocessing.step s action = some s') : s.Grows s' := by
  obtain ⟨u, hu, rfl⟩ := Option.map_eq_some_iff.mp hs
  have hgrows : s.Grows u := grows_perform hu
  exact hgrows

/-! ## Requests -/

structure State.KeepsRequests (s : State) : Prop where
  completed_le : ∀ e ∈ s.events, e.completedGeneration ≤ e.requestedGeneration
  grows : ∀ action s', step s action = some s' → s.Grows s'
  unfinished : ∀ e ∈ s.events, ∀ r ∈ e.requests, r.active → e.completedGeneration < r.generation →
    e.processJob.state = .pending ∨ e.processJob.state.lease.isSome
  completedBy : ∀ e ∈ s.events, ∀ r ∈ e.requests, ∀ claimedAt target,
    r.state = .completed claimedAt target → r.insertedAt ≤ claimedAt ∧ r.generation ≤ target

theorem pending_or_leased {j : Job} (h : ¬ j.state.terminal) :
    j.state = .pending ∨ j.state.lease.isSome := by
  cases hs : j.state with
  | pending => exact .inl rfl
  | leased lease => exact .inr rfl
  | completed | failed | dead =>
    rw [hs] at h
    exact absurd rfl h

theorem keepsRequests_of_reachable
    (h : Reachable (restrict Reprocessing.step Benign) (fun _ => True) .init s) :
    s.KeepsRequests where
  completed_le e he := ((invariant_of_reachable h).sound e he).completed
  grows _ _ hs := grows_step hs
  unfinished e he r hr ha hg :=
    pending_or_leased (((invariant_of_reachable h).sound e he).open_ r hr ha hg)
  completedBy e he := ((invariant_of_reachable h).sound e he).completedBy

end

/-- A request is scheduled while a crash job runs, after a deletion attempt that was claimed
under the same generation. -/
def overlappingDeletion : List Action :=
  [.receive 1, .enqueueDeletion 1, .schedule 10 [1],
    .beginClaim 1, .claim 1 .processCrash 1 ⟨7, 71⟩, .beginClaim 2, .claim 2 .deleteRaw 1 ⟨8, 81⟩]

def retryDeletion : Action := .releaseJob 81 60 false false "OBJECT_STORE_UNAVAILABLE"

theorem keepsRequests_overlappingDeletion :
    ∃ s, Reachable (restrict step Benign) (fun _ => True) .init s ∧ s.KeepsRequests ∧
      ∃ e ∈ s.events, ∃ r ∈ e.requests, r.state = .completed 4 1 := by
  have hrun : (run (restrict step Benign) (fun _ => True) .init
      (overlappingDeletion ++ [.schedule 11 [1], .publishCrashResult 71])).isSome := by
    decide +kernel
  obtain ⟨s, hs⟩ := Option.isSome_iff_exists.mp hrun
  have hreach := Reachable.of_run (.init trivial) hs
  refine ⟨s, hreach, keepsRequests_of_reachable hreach, ?_⟩
  have hrow : ∀ u ∈ run (restrict step Benign) (fun _ => True) .init
      (overlappingDeletion ++ [.schedule 11 [1], .publishCrashResult 71]),
      ∃ e ∈ u.events.rows, ∃ r ∈ e.requests, r.state = .completed 4 1 := by
    decide +kernel
  exact hrow s hs

/-- The retry of the deletion puts the running row back, and the second request shares its
generation. -/
theorem not_keepsRequests_of_release :
    ¬ ∀ s, Reachable step (fun _ => True) .init s → s.KeepsRequests := by
  intro hkeeps
  have hrun : (run step (fun _ => True) .init
      (overlappingDeletion ++ [retryDeletion, .schedule 11 [1], .publishCrashResult 71])).isSome := by
    decide +kernel
  obtain ⟨s, hs⟩ := Option.isSome_iff_exists.mp hrun
  have hrow : ∀ u ∈ run step (fun _ => True) .init
      (overlappingDeletion ++ [retryDeletion, .schedule 11 [1], .publishCrashResult 71]),
      ∃ e ∈ u.events.rows, ∃ r ∈ e.requests, r.state = .completed 4 1 ∧ r.insertedAt = 8 := by
    decide +kernel
  obtain ⟨e, he, r, hr, hstate, hinserted⟩ := hrow s hs
  have hle := ((hkeeps s (Reachable.of_run (.init trivial) hs)).completedBy e he r hr 4 1 hstate).1
  rw [hinserted] at hle
  exact absurd hle (by decide)

end FaultLane.Reprocessing
