import FaultLane.ReprocessingSafety

set_option autoImplicit false

/-!
# Turns of a processing job

What the steps of processing runs do to the one event that they name, and when the job of an
event still has to run.
-/
namespace FaultLane.Reprocessing
open KeyedTable JobQueue

def Event.requestIds (e : Event) : List Uuid := e.requests.map RequestEvent.requestId

/-- The run that an action may end. -/
def Action.ends : Action → Option Uuid
  | .publishCrashResult token | .finishFailure token _ _ _ => some token
  | _ => none

/-- The run that an action may complete. -/
def Action.completes : Action → Option Uuid
  | .publishCrashResult token => some token
  | _ => none

/-- The actions of processing runs, which leave the requests of events alone. -/
def Action.OfProcess : Action → Prop
  | .tick _ | .receive _ | .beginClaim _ | .heartbeat _ | .releaseJob _ _ _ _ _
  | .publishCrashResult _ | .finishFailure _ _ _ _ => True
  | .claim _ kind _ _ => kind = .processCrash
  | .enqueueDeletion _ | .schedule _ _ | .finishDeletion _ | .reconcile _ _ => False

/-- What a step makes of the job of an event, with the attempt that it adds. -/
inductive Turn (s : State) (action : Action) (e : Event) (j : Job) : Option Attempt → Prop where
  | claimed {a : Attempt} (fresh : s.attempts.find a.token = none) (id : a.eventId = e.id)
      (kind : a.kind = .processCrash) (holds : ∀ k, j.holds k ↔ k = a.holder)
      (notTerminal : ¬ j.state.terminal) : Turn s action e j (some a)
  | renewed {a : Attempt} (mem : a ∈ s.attempts) (held : e.processJob.holds a.holder)
      (holds : ∀ k, j.holds k ↔ k = a.holder) : Turn s action e j none
  | queued (pending : j.state = .pending) : Turn s action e j none
  | ended {a : Attempt} (mem : a ∈ s.attempts) (id : a.eventId = e.id)
      (ends : action.ends = some a.token) (latest : ¬ a.target < e.requestedGeneration)
      (terminal : j.state.terminal)
      (completes : j.state = .completed → action.completes = some a.token) :
      Turn s action e j none

def State.withAttempt (s : State) : Option Attempt → Table Attempt.token
  | none => s.attempts
  | some a => s.attempts.insert a

inductive Moves (s : State) (action : Action) (s' : State) : Prop where
  | still (events : s'.events = s.events) (attempts : s'.attempts = s.attempts)
  | received {e : Event} (fresh : s.events.find e.id = none) (requests : e.requestIds = [])
      (events : s'.events = s.events.insert e) (attempts : s'.attempts = s.attempts)
      (job : e.processJob.state = .pending)
  | turned {e : Event} (e' : Event) (new : Option Attempt) (mem : e ∈ s.events) (id : e'.id = e.id)
      (requests : e'.requestIds = e.requestIds)
      (requested : e'.requestedGeneration = e.requestedGeneration)
      (events : s'.events = (s.put e').events) (attempts : s'.attempts = s.withAttempt new)
      (turn : Turn s action e e'.processJob new)

section
variable {e : Event} {s s' : State} {action : Action}

/-! ## One move for each action -/

theorem updateRequests_requestIds {p : RequestEvent → Prop} [DecidablePred p]
    {state : RequestState} : (e.updateRequests p state).requestIds = e.requestIds := by
  unfold Event.updateRequests Event.requestIds
  rw [List.map_map]
  refine List.map_congr_left fun r _ => ?_
  dsimp only [Function.comp]
  split <;> rfl

theorem markRunning_requestIds (target : Nat) :
    (e.markRunning target).requestIds = e.requestIds := by
  unfold Event.markRunning
  split
  · rfl
  · exact updateRequests_requestIds

theorem markQueued_requestIds (target : Nat) :
    (e.markQueued target).requestIds = e.requestIds := by
  unfold Event.markQueued
  split
  · rfl
  · exact updateRequests_requestIds

theorem endRun_requestIds (target : Nat) (state : RequestState) :
    (e.endRun target state).requestIds = e.requestIds := by
  unfold Event.endRun Event.markDone
  split
  · rfl
  · exact updateRequests_requestIds

theorem endRun_id (target : Nat) (state : RequestState) : (e.endRun target state).id = e.id := by
  unfold Event.endRun Event.markDone
  split <;> rfl

theorem moves_claim {id : Nat} {eventId : Uuid} {holder : Holder}
    (hs : claim s id .processCrash eventId holder = some s') : Moves s action s' := by
  obtain ⟨claimer, -, hs⟩ := Option.bind_eq_some_iff.mp hs
  obtain ⟨target, -, hs⟩ := Option.bind_eq_some_iff.mp hs
  obtain ⟨e, he, hs⟩ := Option.bind_eq_some_iff.mp hs
  obtain ⟨j, -, hs⟩ := Option.bind_eq_some_iff.mp hs
  obtain ⟨j', hj', hs⟩ := Option.bind_eq_some_iff.mp hs
  split_ifs at hs with hnew
  cases hs
  obtain ⟨he, hid⟩ := Table.find_eq_some.mp he
  obtain ⟨-, hstate⟩ := Job.claim_eq_some hj'
  have hmarked : ((e.markRunning target).setJob .processCrash j').id = e.id := by
    unfold Event.markRunning
    split <;> rfl
  refine .turned ((e.markRunning target).setJob .processCrash j')
    (some ⟨holder, eventId, .processCrash, target, s.clock⟩) he hmarked
    (markRunning_requestIds target) (Event.markRunning_requestedGeneration target) rfl rfl ?_
  refine .claimed (Option.not_isSome_iff_eq_none.mp hnew) hid.symm rfl
    (fun k => Job.holds_of_state hstate) ?_
  rw [show ((e.markRunning target).setJob .processCrash j').processJob = j' from rfl, hstate]
  rintro ⟨⟩

theorem moves_heartbeat (hk : ∀ a ∈ s.attempts, a.kind = .processCrash) {token : Uuid}
    (hs : heartbeat s token = some s') : Moves s action s' := by
  obtain ⟨⟨a, e, j⟩, ht, hs⟩ := Option.bind_eq_some_iff.mp hs
  obtain ⟨j', hj', hs⟩ := Option.bind_eq_some_iff.mp hs
  cases hs
  have hat := attempt_eq_some ht
  have hrenews := Job.heartbeat_renews hj'
  have hjob := hat.job
  dsimp only at *
  rw [hk a hat.mem] at hjob ⊢
  cases hjob
  exact .turned (e.setJob .processCrash j') none hat.event rfl rfl rfl rfl rfl
    (.renewed hat.mem hrenews.held hrenews.holds)

theorem moves_releaseJob (hk : ∀ a ∈ s.attempts, a.kind = .processCrash) {token seconds : Nat}
    {resource dependency : Bool} {code : String}
    (hs : releaseJob s token seconds resource dependency code = some s') : Moves s action s' := by
  obtain ⟨⟨a, e, j⟩, ht, hs⟩ := Option.bind_eq_some_iff.mp hs
  obtain ⟨j', hj', hs⟩ := Option.bind_eq_some_iff.mp hs
  cases hs
  have hat := attempt_eq_some ht
  dsimp only at *
  rw [hk a hat.mem]
  refine .turned ((e.markQueued a.target).setJob .processCrash j') none hat.event ?_
    (markQueued_requestIds a.target) (Event.markQueued_requestedGeneration a.target) rfl rfl
    (.queued (Job.release_ends hj').2)
  unfold Event.markQueued
  split <;> rfl

/-- The job that a run leaves is queued again for a newer generation, else at its end. -/
theorem endJob_pending {e' : Event} {a : Attempt} {now : Nat} {done : Job → Option Job} {j : Job}
    (hd : ∀ j', done j = some j' → j'.state.terminal) (h : e.endJob a now done j = some e') :
    ∃ j', (j'.state.terminal → ¬ a.target < e.requestedGeneration) ∧
      (¬ j'.state.terminal → j'.state = .pending) ∧ (j'.state.terminal → done j = some j') ∧
      e' = { e with processJob := j' } := by
  obtain ⟨j', hj', rfl⟩ := Option.map_eq_some_iff.mp h
  split at hj'
  · have hpending := (Job.requeueForNewGeneration_ends hj').2
    have hopen : ¬ j'.state.terminal := by
      rw [hpending]
      exact nofun
    exact ⟨j', fun ht => absurd ht hopen, fun _ => hpending, fun ht => absurd ht hopen, rfl⟩
  · next hn => exact ⟨j', fun _ => hn, fun ht => absurd (hd j' hj') ht, fun _ => hj', rfl⟩

theorem moves_endRun {token : Uuid} {a : Attempt} {j : Job} {state : RequestState}
    (hat : s.Attempts token a e e.processJob) (hends : action.ends = some token)
    (hlatest : j.state.terminal → ¬ a.target < e.requestedGeneration)
    (hpending : ¬ j.state.terminal → j.state = .pending)
    (hcompletes : j.state = .completed → action.completes = some token) :
    Moves s action (s.put { e.endRun a.target state with processJob := j }) := by
  refine .turned { e.endRun a.target state with processJob := j } none hat.event
    (endRun_id a.target state) (endRun_requestIds a.target state)
    (Event.endRun_requestedGeneration a.target state) rfl rfl ?_
  by_cases ht : j.state.terminal
  · have htoken : token = a.token := (Table.find_eq_some.mp hat.attempt).2.symm
    rw [htoken] at hends hcompletes
    exact .ended hat.mem hat.id.symm hends (hlatest ht) ht hcompletes
  · exact .queued (hpending ht)

theorem moves_publishCrashResult {token : Uuid} (hends : action.ends = some token)
    (hcompletes : action.completes = some token)
    (hs : publishCrashResult s token = some s') : Moves s action s' := by
  obtain ⟨⟨a, e, j⟩, ht, hs⟩ := Option.bind_eq_some_iff.mp hs
  obtain ⟨j', hj', hs⟩ := Option.bind_eq_some_iff.mp hs
  have hat := attempt_eq_some ht
  dsimp only at hs hat
  split at hs
  · next hk =>
    obtain ⟨e', he', hs⟩ := Option.bind_eq_some_iff.mp hs
    cases hs
    have hjob := hat.job
    rw [hk] at hjob
    cases hjob
    obtain ⟨j'', hlatest, hpending, -, rfl⟩ := endJob_pending (fun j₂ hj₂ => by
      rw [(Job.completeJob_ends hj₂).2]
      rfl) he'
    have hrequested : (e.endRun a.target (.completed a.claimedAt a.target)).requestedGeneration =
      e.requestedGeneration := Event.endRun_requestedGeneration _ _
    exact moves_endRun ⟨hat.attempt, hat.event, hat.id, hat.job⟩ hends (hrequested ▸ hlatest)
      hpending fun _ => hcompletes
  · cases hs

theorem terminalJob_not_completed {j j' : Job} {h : Holder} {quarantine resource : Bool}
    {code : String} (ht : j.terminalJob h quarantine resource code = some j') :
    j'.state ≠ .completed := by
  unfold Job.terminalJob at ht
  split at ht
  · cases ht
    cases quarantine <;> exact nofun
  · cases ht

theorem moves_finishFailure (hk : ∀ a ∈ s.attempts, a.kind = .processCrash) {token : Uuid}
    {quarantine resource : Bool} {code : String} (hends : action.ends = some token)
    (hs : finishFailure s token quarantine resource code = some s') : Moves s action s' := by
  obtain ⟨⟨a, e, j⟩, ht, hs⟩ := Option.bind_eq_some_iff.mp hs
  obtain ⟨j', hj', hs⟩ := Option.bind_eq_some_iff.mp hs
  have hat := attempt_eq_some ht
  have hkind := hk a hat.mem
  dsimp only at hs hat
  rw [hkind] at hs
  obtain ⟨e', he', hs⟩ := Option.bind_eq_some_iff.mp hs
  cases hs
  have hjob := hat.job
  rw [hkind] at hjob
  cases hjob
  obtain ⟨j'', hlatest, hpending, hdone, rfl⟩ :=
    endJob_pending (fun j₂ hj₂ => (Job.terminalJob_ends hj₂).2) he'
  have hrequested : (e.endRun a.target .failed).requestedGeneration = e.requestedGeneration :=
    Event.endRun_requestedGeneration _ _
  refine moves_endRun ⟨hat.attempt, hat.event, hat.id, hat.job⟩ hends (hrequested ▸ hlatest)
    hpending fun hcompleted => ?_
  exact absurd hcompleted (terminalJob_not_completed (hdone (by rw [hcompleted]; rfl)))

theorem moves_receive {eventId : Uuid} (hs : receive s eventId = some s') :
    Moves s action s' := by
  unfold receive at hs
  split_ifs at hs with hf
  cases hs
  exact .received (e := ⟨eventId, 0, 0, .new 100 s.now, none, []⟩)
    (Option.not_isSome_iff_eq_none.mp hf) rfl rfl rfl rfl

theorem moves_beginClaim {id : Nat} (hs : beginClaim s id = some s') : Moves s action s' := by
  unfold beginClaim at hs
  split_ifs at hs
  cases hs
  exact .still rfl rfl

theorem moves_of_perform (hk : ∀ a ∈ s.attempts, a.kind = .processCrash) (hp : action.OfProcess)
    (hs : perform s action = some s') : Moves s action s' := by
  cases action with
  | tick seconds =>
    cases hs
    exact .still rfl rfl
  | receive eventId => exact moves_receive hs
  | beginClaim id => exact moves_beginClaim hs
  | claim id kind eventId holder =>
    cases hp
    exact moves_claim hs
  | heartbeat token => exact moves_heartbeat hk hs
  | releaseJob token seconds resource dependency code => exact moves_releaseJob hk hs
  | publishCrashResult token => exact moves_publishCrashResult rfl rfl hs
  | finishFailure token quarantine resource code => exact moves_finishFailure hk rfl hs
  | enqueueDeletion _ | schedule _ _ | finishDeletion _ | reconcile _ _ => cases hp

theorem moves_of_step (hk : ∀ a ∈ s.attempts, a.kind = .processCrash) (hp : action.OfProcess)
    (hs : step s action = some s') : Moves s action s' := by
  obtain ⟨u, hu, rfl⟩ := Option.map_eq_some_iff.mp hs
  cases moves_of_perform hk hp hu with
  | still events attempts => exact .still events attempts
  | received fresh requests events attempts job =>
    exact .received fresh requests events attempts job
  | turned e' new mem id requests requested events attempts turn =>
    exact .turned e' new mem id requests requested events attempts turn

/-! ## Jobs that still have to run -/

/-- The job of the event is not finished, and a run that has it, if it is behind, runs it again. -/
def State.Due (s : State) (finished : JobState → Prop) (behind : Attempt → Prop) (eventId : Uuid) :
    Prop :=
  ∃ e ∈ s.events, e.id = eventId ∧ ¬ finished e.processJob.state ∧
    ∀ a ∈ s.attempts, a.eventId = eventId → e.processJob.holds a.holder → behind a →
      a.target < e.requestedGeneration

def State.Requested (s : State) (eventId requestId : Uuid) : Prop :=
  ∃ e ∈ s.events, e.id = eventId ∧ requestId ∈ e.requestIds

theorem mem_withAttempt {new : Option Attempt} {a : Attempt}
    (ha : a ∈ s.withAttempt new) (hf : ∀ b ∈ new, s.attempts.find b.token = none) :
    a ∈ s.attempts ∨ new = some a := by
  cases new with
  | none => exact .inl ha
  | some b =>
    rcases (Table.mem_insert (hf b rfl)).mp ha with rfl | ha
    · exact .inr rfl
    · exact .inl ha

theorem Turn.fresh {j : Job} {new : Option Attempt} (h : Turn s action e j new) :
    ∀ b ∈ new, s.attempts.find b.token = none := by
  cases h with
  | claimed fresh =>
    rintro b ⟨⟩
    exact fresh
  | renewed | queued | ended => exact nofun

theorem Moves.mem_attempts (h : Moves s action s') {a : Attempt} (ha : a ∈ s'.attempts) :
    a ∈ s.attempts ∨ (s.attempts.find a.token = none ∧ a.kind = .processCrash) := by
  cases h with
  | still _ attempts | received _ _ _ attempts => exact .inl (attempts ▸ ha)
  | turned e' new mem id requests requested events attempts turn =>
    rw [attempts] at ha
    rcases mem_withAttempt ha turn.fresh with ha | rfl
    · exact .inl ha
    · cases turn with
      | claimed fresh id kind => exact .inr ⟨fresh, kind⟩

theorem Moves.attempts_subset (h : Moves s action s') {a : Attempt} (ha : a ∈ s.attempts) :
    a ∈ s'.attempts := by
  cases h with
  | still _ attempts | received _ _ _ attempts => exact attempts ▸ ha
  | turned e' new mem id requests requested events attempts turn =>
    rw [attempts]
    cases new with
    | none => exact ha
    | some b => exact (Table.mem_insert (turn.fresh b rfl)).mpr (.inr ha)

theorem not_holds_of_pending {j : Job} (hp : j.state = .pending) (k : Holder) : ¬ j.holds k := by
  rintro ⟨lease, hlease, -⟩
  rw [hp] at hlease
  cases hlease

/-- A run that has a job after a step had it before, or has claimed it in that step. -/
theorem Moves.held (h : Moves s action s') {a : Attempt} {e' : Event} (he' : e' ∈ s'.events)
    (hh : e'.processJob.holds a.holder) : s.attempts.find a.token = none ∨
      ∃ e ∈ s.events, e.id = e'.id ∧ e.processJob.holds a.holder := by
  cases h with
  | still events => exact .inr ⟨e', events ▸ he', rfl, hh⟩
  | received fresh requests events attempts job =>
    rw [events] at he'
    rcases (Table.mem_insert fresh).mp he' with rfl | he'
    · exact absurd hh (not_holds_of_pending job _)
    · exact .inr ⟨e', he', rfl, hh⟩
  | turned e₁ new mem id requests requested events attempts turn =>
    rw [events] at he'
    rcases (mem_put mem id).mp he' with ⟨he', -⟩ | rfl
    · exact .inr ⟨e', he', rfl, hh⟩
    · cases turn with
      | claimed fresh _ _ holds =>
        have htoken : a.token = _ := congrArg Holder.token ((holds _).mp hh)
        exact .inl (htoken.symm ▸ fresh)
      | renewed _ held holds => exact .inr ⟨_, mem, id.symm, (holds _).mp hh ▸ held⟩
      | queued pending => exact absurd hh (not_holds_of_pending pending _)
      | ended _ _ _ _ terminal => exact absurd terminal (not_terminal_of_holds hh)

theorem Moves.requested (h : Moves s action s') {eventId requestId : Uuid}
    (hr : s'.Requested eventId requestId) : s.Requested eventId requestId := by
  obtain ⟨x, hx, rfl, hmem⟩ := hr
  cases h with
  | still events => exact ⟨x, events ▸ hx, rfl, hmem⟩
  | received fresh requests events =>
    rw [events] at hx
    rcases (Table.mem_insert fresh).mp hx with rfl | hx
    · rw [requests] at hmem
      cases hmem
    · exact ⟨x, hx, rfl, hmem⟩
  | turned e' new mem id requests requested events =>
    rw [events] at hx
    rcases (mem_put mem id).mp hx with ⟨hx, -⟩ | rfl
    · exact ⟨x, hx, rfl, hmem⟩
    · exact ⟨_, mem, id.symm, requests ▸ hmem⟩

section due
variable {finished : JobState → Prop} {behind : Attempt → Prop}

/-- A job that has to run stays so, unless a run of its newest generation ends. -/
theorem Moves.due (h : Moves s action s') (behind' : Attempt → Prop)
    (hover : ∀ j, finished j → j.terminal) {eventId : Uuid}
    (hd : s.Due finished behind eventId) (hold : ∀ a ∈ s.attempts, behind' a → behind a)
    (hnew : ∀ a, s.attempts.find a.token = none → ¬ behind' a) :
    s'.Due finished behind' eventId ∨ ∃ a ∈ s.attempts, a.eventId = eventId ∧
      action.ends = some a.token ∧
      (∀ e ∈ s.events, e.id = eventId → ¬ a.target < e.requestedGeneration) ∧
      ∃ j, finished j ∧ (j = .completed → action.completes = some a.token) := by
  obtain ⟨x, hx, rfl, hopen, hbehind⟩ := hd
  have hkept : ∀ a ∈ s.attempts, a.eventId = x.id → x.processJob.holds a.holder → behind' a →
      a.target < x.requestedGeneration := fun a ha hid hh hb =>
    hbehind a ha hid hh (hold a ha hb)
  cases h with
  | still events attempts =>
    refine .inl ⟨x, events ▸ hx, rfl, hopen, ?_⟩
    rwa [attempts]
  | received fresh requests events attempts =>
    refine .inl ⟨x, ?_, rfl, hopen, ?_⟩
    · rw [events]
      exact (Table.mem_insert fresh).mpr (.inr hx)
    · rwa [attempts]
  | @turned e e' new mem id requests requested events attempts turn =>
    have hattempts : ∀ a ∈ s'.attempts, behind' a → a ∈ s.attempts := fun a ha hb => by
      rw [attempts] at ha
      rcases mem_withAttempt ha turn.fresh with ha | hn
      · exact ha
      · exact absurd hb (hnew a (turn.fresh a hn))
    by_cases hxe : x.id = e.id
    · obtain rfl := Table.eq_of_key_eq hx mem hxe
      have hmem : e' ∈ s'.events := events ▸ (mem_put hx id).mpr (.inr rfl)
      cases turn with
      | claimed fresh hid kind holds notTerminal =>
        refine .inl ⟨e', hmem, id, fun ho => notTerminal (hover _ ho), fun a ha _ hh hb => ?_⟩
        have htoken := congrArg Holder.token ((holds _).mp hh)
        exact absurd htoken (Table.find_eq_none.mp fresh a (hattempts a ha hb))
      | renewed hmem' held holds =>
        have hrenewed := not_terminal_of_holds ((holds _).mpr rfl)
        refine .inl ⟨e', hmem, id, fun ho => hrenewed (hover _ ho), fun a ha hid hh hb => ?_⟩
        rw [requested]
        have hholder := (holds _).mp hh
        exact hkept a (hattempts a ha hb) hid (hholder ▸ held) hb
      | queued pending =>
        refine .inl ⟨e', hmem, id, fun ho => ?_, fun a _ _ hh _ => ?_⟩
        · have ht := hover _ ho
          rw [pending] at ht
          cases ht
        · exact absurd hh (not_holds_of_pending pending _)
      | @ended a ha hid ends latest terminal completes =>
        by_cases ho : finished e'.processJob.state
        · refine .inr ⟨a, ha, hid, ends, fun y hy hyid => ?_, _, ho, completes⟩
          obtain rfl := Table.eq_of_key_eq hy hx hyid
          exact latest
        · refine .inl ⟨e', hmem, id, ho, fun b _ _ hh _ => ?_⟩
          exact absurd terminal (not_terminal_of_holds hh)
    · refine .inl ⟨x, events ▸ (mem_put mem id).mpr (.inl ⟨hx, hxe⟩), rfl, hopen,
        fun a ha hid hh hb => ?_⟩
      exact hkept a (hattempts a ha hb) hid hh hb

/-- A run that ends has the job of its event. -/
theorem held_of_ends (hk : ∀ a ∈ s.attempts, a.kind = .processCrash) {token : Uuid}
    (hends : action.ends = some token) (hs : step s action = some s') :
    ∃ a e, s.Attempts token a e e.processJob ∧ e.processJob.holds a.holder := by
  obtain ⟨u, hu, -⟩ := Option.map_eq_some_iff.mp hs
  have hlocked : ∃ a e j j', s.attempt token = some (a, e, j) ∧
      j.lockLease a.holder s.now = some j' := by
    cases action with
    | publishCrashResult token' =>
      cases hends
      obtain ⟨⟨a, e, j⟩, ht, hu⟩ := Option.bind_eq_some_iff.mp hu
      obtain ⟨j', hj', -⟩ := Option.bind_eq_some_iff.mp hu
      exact ⟨a, e, j, j', ht, hj'⟩
    | finishFailure token' quarantine resource code =>
      cases hends
      obtain ⟨⟨a, e, j⟩, ht, hu⟩ := Option.bind_eq_some_iff.mp hu
      obtain ⟨j', hj', -⟩ := Option.bind_eq_some_iff.mp hu
      exact ⟨a, e, j, j', ht, hj'⟩
    | _ => cases hends
  obtain ⟨a, e, j, j', ht, hj'⟩ := hlocked
  have hat := attempt_eq_some ht
  have hjob := hat.job
  rw [hk a hat.mem] at hjob
  cases hjob
  exact ⟨a, e, hat, (Job.lockLease_renews hj').held⟩

/-- The newest generation is not the target of the run that has the job. -/
theorem due_of_held {token : Uuid} {a : Attempt} (hat : s.Attempts token a e e.processJob)
    (hover : ∀ j, finished j → j.terminal) (hh : e.processJob.holds a.holder)
    (hlt : a.target < e.requestedGeneration) : s.Due finished behind a.eventId := by
  refine ⟨e, hat.event, hat.id, fun ho => not_terminal_of_holds hh (hover _ ho),
    fun b hb _ hbh _ => ?_⟩
  obtain rfl := Attempt.eq_of_holder hat.mem hb (Job.holds_unique hbh hh)
  exact hlt

/-! ## Scheduling -/

theorem Event.schedule_not_over (hover : ∀ j, finished j → j.terminal)
    {requestId now clock : Nat} (h : ¬ finished e.processJob.state) :
    ¬ finished (e.schedule requestId now clock).processJob.state := by
  by_cases hk : e.requests.any (·.requestId = requestId)
  · rwa [Event.schedule_of_known hk]
  · rw [Event.schedule_of_new hk]
    exact fun ho => reactivated_not_terminal e.processJob now (hover _ ho)

theorem Event.mem_schedule_requestIds {requestId now clock : Nat} {r : Uuid}
    (hr : r ∈ (e.schedule requestId now clock).requestIds) : r ∈ e.requestIds ∨ r = requestId := by
  by_cases hk : e.requests.any (·.requestId = requestId)
  · rw [Event.schedule_of_known hk] at hr
    exact .inl hr
  · rw [Event.schedule_of_new hk] at hr
    rcases List.mem_cons.mp hr with rfl | hr
    · exact .inr rfl
    · exact .inl hr

section schedule
variable {requestId now clock : Nat} {eventIds : List Uuid}

theorem State.Due.put_schedule (hover : ∀ j, finished j → j.terminal) {eventId : Uuid}
    (hd : s.Due finished behind eventId) (he : e ∈ s.events) :
    (s.put (e.schedule requestId now clock)).Due finished behind eventId := by
  obtain ⟨x, hx, rfl, hopen, hbehind⟩ := hd
  by_cases hxe : x.id = e.id
  · obtain rfl := Table.eq_of_key_eq hx he hxe
    refine ⟨_, (mem_put he Event.schedule_id).mpr (.inr rfl), Event.schedule_id,
      Event.schedule_not_over hover hopen, fun a ha hid hh hb => ?_⟩
    exact (hbehind a ha hid (Event.holds_schedule.mp hh) hb).trans_le Event.requested_le_schedule
  · exact ⟨x, (mem_put he Event.schedule_id).mpr (.inl ⟨hx, hxe⟩), rfl, hopen, hbehind⟩

theorem State.Due.putAll (hover : ∀ j, finished j → j.terminal) {eventId : Uuid}
    (hd : s.Due finished behind eventId)
    (hs : State.putAll (Event.schedule · requestId now clock) eventIds s = some s') :
    s'.Due finished behind eventId := by
  induction eventIds generalizing s with
  | nil =>
    cases hs
    exact hd
  | cons id rest ih =>
    obtain ⟨e, he, hs⟩ := Option.bind_eq_some_iff.mp hs
    exact ih (hd.put_schedule hover (Table.find_eq_some.mp he).1) hs

theorem putAll_attempts (hs : State.putAll (Event.schedule · requestId now clock) eventIds s =
    some s') : s'.attempts = s.attempts := by
  induction eventIds generalizing s with
  | nil =>
    cases hs
    rfl
  | cons id rest ih =>
    obtain ⟨e, -, hs⟩ := Option.bind_eq_some_iff.mp hs
    have hrest := ih hs
    exact hrest

theorem held_putAll (hs : State.putAll (Event.schedule · requestId now clock) eventIds s =
    some s') {k : Holder} {e' : Event} (he' : e' ∈ s'.events) (hh : e'.processJob.holds k) :
    ∃ e ∈ s.events, e.id = e'.id ∧ e.processJob.holds k := by
  induction eventIds generalizing s with
  | nil =>
    cases hs
    exact ⟨e', he', rfl, hh⟩
  | cons id rest ih =>
    obtain ⟨e, he, hs⟩ := Option.bind_eq_some_iff.mp hs
    obtain ⟨x, hx, hid, hxh⟩ := ih hs
    rcases (mem_put (Table.find_eq_some.mp he).1 Event.schedule_id).mp hx with ⟨hx, -⟩ | rfl
    · exact ⟨x, hx, hid, hxh⟩
    · exact ⟨e, (Table.find_eq_some.mp he).1, Event.schedule_id.symm.trans hid,
        Event.holds_schedule.mp hxh⟩

theorem requested_putAll {eventId r : Uuid}
    (hs : State.putAll (Event.schedule · requestId now clock) eventIds s = some s')
    (hr : s'.Requested eventId r) :
    s.Requested eventId r ∨ (r = requestId ∧ eventId ∈ eventIds) := by
  induction eventIds generalizing s with
  | nil =>
    cases hs
    exact .inl hr
  | cons id rest ih =>
    obtain ⟨e, he, hs⟩ := Option.bind_eq_some_iff.mp hs
    obtain ⟨he, hid⟩ := Table.find_eq_some.mp he
    rcases ih hs with ⟨x, hx, rfl, hmem⟩ | ⟨rfl, hin⟩
    · rcases (mem_put he Event.schedule_id).mp hx with ⟨hx, -⟩ | rfl
      · exact .inl ⟨x, hx, rfl, hmem⟩
      · rw [Event.schedule_id, hid]
        rcases Event.mem_schedule_requestIds hmem with hmem | rfl
        · exact .inl ⟨e, he, hid, hmem⟩
        · exact .inr ⟨rfl, List.mem_cons_self⟩
    · exact .inr ⟨rfl, List.mem_cons_of_mem _ hin⟩

/-- An event is scheduled past the run that has its job. -/
theorem due_put_schedule (hover : ∀ j, finished j → j.terminal) (h : Invariant clock s)
    (hk : ∀ a ∈ s.attempts, a.kind = .processCrash) (he : e ∈ s.events)
    (hnew : requestId ∉ e.requestIds) {insertedAt : Nat} :
    (s.put (e.schedule requestId now insertedAt)).Due finished behind e.id := by
  have hunknown : ¬ e.requests.any (·.requestId = requestId) := fun hany => by
    obtain ⟨r, hr, heq⟩ := List.any_eq_true.mp hany
    exact hnew (List.mem_map.mpr ⟨r, hr, of_decide_eq_true heq⟩)
  refine ⟨_, (mem_put he Event.schedule_id).mpr (.inr rfl), Event.schedule_id, ?_,
    fun a ha hid hh _ => ?_⟩
  · rw [Event.schedule_of_new hunknown]
    exact fun ho => reactivated_not_terminal e.processJob now (hover _ ho)
  · have hh := Event.holds_schedule.mp hh
    rw [Event.schedule_of_new hunknown]
    exact (h.fenced a ha (hk a ha) e he hid.symm hh).target_lt_next hh

theorem due_of_putAll (hover : ∀ j, finished j → j.terminal) (h : Invariant clock s)
    (hk : ∀ a ∈ s.attempts, a.kind = .processCrash)
    {insertedAt : Nat} (hc : insertedAt < clock) {eventId : Uuid} (hin : eventId ∈ eventIds)
    (hnew : ¬ s.Requested eventId requestId)
    (hs : State.putAll (Event.schedule · requestId now insertedAt) eventIds s = some s') :
    s'.Due finished behind eventId := by
  induction eventIds generalizing s with
  | nil => cases hin
  | cons id rest ih =>
    obtain ⟨e, hfind, hrest⟩ := Option.bind_eq_some_iff.mp hs
    obtain ⟨he, rfl⟩ := Table.find_eq_some.mp hfind
    by_cases heq : eventId = e.id
    · subst heq
      exact (due_put_schedule hover h hk he fun hmem => hnew ⟨e, he, rfl, hmem⟩).putAll hover hrest
    · refine ih (h.schedule hc he) hk ((List.mem_cons.mp hin).resolve_left heq) ?_ hrest
      rintro ⟨x, hx, hxid, hmem⟩
      rcases (mem_put he Event.schedule_id).mp hx with ⟨hx, -⟩ | rfl
      · exact hnew ⟨x, hx, hxid, hmem⟩
      · exact heq (hxid.symm.trans Event.schedule_id)

end schedule
end due

end
end FaultLane.Reprocessing
