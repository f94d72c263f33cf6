import FaultLane.SymbolWakeupsCovered

set_option autoImplicit false

/-!
# Runs that lose no wake-up

Along the steps that meet `Undisturbed` a project that is quiet has no result left that misses
an artifact. A run that has read no release, and publishes when the request of its artifact has
gone by, is never woken again.
-/
namespace FaultLane.SymbolWakeups
open KeyedTable JobQueue TransitionSystem
open CrashSymbols (ReleaseLookup SelectedArtifact asciiLowercase)
open Reprocessing (Attempt Moves)

structure State.Invariant (lower : String → String) (s : State) : Prop where
  queue : Reprocessing.Invariant s.jobs.clock s.jobs
  kinds : ∀ a ∈ s.jobs.attempts, a.kind = .processCrash
  sound : s.db.Sound s.now
  readings : ∀ r ∈ s.db.readings, ∃ a ∈ s.jobs.attempts, a.token = r.token
  known : ∀ eventId requestId, s.jobs.Requested eventId requestId → ∃ q ∈ s.db.requests,
    q.id = requestId ∧ (q.unfinished → ∃ cursor ∈ q.cursor, eventId ≤ cursor)
  covered : s.db.Covered lower s.Due

section
variable {lower : String → String} {s : State} {action : Action} {jobs : Reprocessing.State}
  {db : Database}

theorem step_eq_some {s' : State} (h : step lower s action = some s') : ∃ jobs db,
    Reprocessing.step s.jobs (queueAction lower s action) = some jobs ∧
      perform lower s action = some db ∧ s' = ⟨jobs, db⟩ := by
  obtain ⟨jobs, hjobs, h⟩ := Option.bind_eq_some_iff.mp h
  obtain ⟨db, hdb, h⟩ := Option.bind_eq_some_iff.mp h
  cases h
  exact ⟨jobs, db, hjobs, hdb, rfl⟩

/-! ## The queue -/

theorem step_clock {a : Reprocessing.Action} (h : Reprocessing.step s.jobs a = some jobs) :
    jobs.clock = s.now + 1 := by
  obtain ⟨u, -, rfl⟩ := Option.map_eq_some_iff.mp h
  rfl

theorem State.Invariant.benign (h : s.Invariant lower) :
    Reprocessing.Benign s.jobs (queueAction lower s action) := by
  cases action with
  | releaseJob token seconds resource dependency code =>
    intro a ha hk
    have hkind := h.kinds a (Table.find_eq_some.mp ha).1
    rw [hk] at hkind
    cases hkind
  | _ => exact trivial

/-- Apart from an expansion, a step is one move of a processing job. -/
theorem State.Invariant.moves (h : s.Invariant lower) (hx : ∀ id, action ≠ .expand id)
    (hj : Reprocessing.step s.jobs (queueAction lower s action) = some jobs) :
    Moves s.jobs (queueAction lower s action) jobs := by
  refine Reprocessing.moves_of_step h.kinds ?_ hj
  cases action with
  | expand id => exact absurd rfl (hx id)
  | claim id eventId holder => exact rfl
  | _ => exact trivial

theorem schedule_eq_some {requestId : Uuid} {eventIds : List Uuid}
    (h : Reprocessing.step s.jobs (.schedule requestId eventIds) = some jobs) :
    ∃ u, Reprocessing.State.putAll (Reprocessing.Event.schedule · requestId s.jobs.now s.now)
      eventIds s.jobs = some u ∧ jobs = { u with clock := s.now + 1 } := by
  obtain ⟨u, hu, rfl⟩ := Option.map_eq_some_iff.mp h
  exact ⟨u, hu, rfl⟩

theorem State.Invariant.mem_attempts (h : s.Invariant lower)
    (hj : Reprocessing.step s.jobs (queueAction lower s action) = some jobs) {a : Attempt}
    (ha : a ∈ jobs.attempts) :
    a ∈ s.jobs.attempts ∨ (s.jobs.attempts.find a.token = none ∧ a.kind = .processCrash) := by
  by_cases hx : ∃ id, action = .expand id
  · obtain ⟨id, rfl⟩ := hx
    obtain ⟨u, hu, rfl⟩ := schedule_eq_some hj
    exact .inl (Reprocessing.putAll_attempts hu ▸ ha)
  · exact (h.moves (fun id hid => hx ⟨id, hid⟩) hj).mem_attempts ha

theorem State.Invariant.attempts_subset (h : s.Invariant lower)
    (hj : Reprocessing.step s.jobs (queueAction lower s action) = some jobs) {a : Attempt}
    (ha : a ∈ s.jobs.attempts) : a ∈ jobs.attempts := by
  by_cases hx : ∃ id, action = .expand id
  · obtain ⟨id, rfl⟩ := hx
    obtain ⟨u, hu, rfl⟩ := schedule_eq_some hj
    rwa [show u.attempts = s.jobs.attempts from Reprocessing.putAll_attempts hu]
  · exact (h.moves (fun id hid => hx ⟨id, hid⟩) hj).attempts_subset ha

/-! ## Readings -/

theorem read_eq_some {token : Uuid} {lookup : Option ReleaseLookup}
    (h : read lower s token lookup = some db) : (∃ a ∈ s.jobs.attempts, a.token = token) ∧
      ∃ release, s.db.readings.find token = none ∧
        db = { s.db with readings := s.db.readings.insert ⟨token, s.now, release⟩ } := by
  unfold read at h
  split_ifs at h with hold
  cases h
  obtain ⟨a, ha⟩ := Option.isSome_iff_exists.mp hold.1
  obtain ⟨ha, htoken⟩ := Table.find_eq_some.mp ha
  exact ⟨⟨a, ha, htoken⟩, _, Option.isNone_iff_eq_none.mp hold.2, rfl⟩

/-- A reading that a step adds is that of a run, and as late as the step. -/
theorem State.Invariant.mem_readings (h : s.Invariant lower)
    (hp : perform lower s action = some db) {r : Reading} (hr : r ∈ db.readings) :
    (∃ a ∈ s.jobs.attempts, a.token = r.token) ∧ (r ∈ s.db.readings ∨ s.now ≤ r.readAt) := by
  have hsame : db.readings = s.db.readings → (∃ a ∈ s.jobs.attempts, a.token = r.token) ∧
      (r ∈ s.db.readings ∨ s.now ≤ r.readAt) := fun heq => by
    rw [heq] at hr
    exact ⟨h.readings r hr, .inl hr⟩
  cases action with
  | read token lookup =>
    obtain ⟨hrun, release, hnone, rfl⟩ := read_eq_some hp
    have hmem : ∀ r, r ∈ s.db.readings.insert ⟨token, s.now, release⟩ ↔
        r = ⟨token, s.now, release⟩ ∨ r ∈ s.db.readings := fun r => Table.mem_insert hnone
    rcases (hmem r).mp hr with rfl | hr
    · exact ⟨hrun, .inr le_rfl⟩
    · exact ⟨h.readings r hr, .inl hr⟩
  | tick seconds | beginClaim id | claim id eventId holder | heartbeat token
  | releaseJob token seconds resource dependency code =>
    cases hp
    exact hsame rfl
  | receive eventId =>
    obtain ⟨-, rfl⟩ := receive_eq_some hp
    exact hsame rfl
  | createRelease id key =>
    obtain ⟨-, rfl⟩ := Database.createRelease_eq_some hp
    exact hsame rfl
  | negotiate id releaseId artifact => exact hsame (Database.withdraws_of_negotiate hp).readings
  | withdraw id => exact hsame (Database.withdraws_of_withdraw h.sound hp).readings
  | makeAvailable id requestId =>
    obtain ⟨m, -, hi⟩ := Database.makeAvailable_eq_some hp
    exact hsame hi.readings
  | claimRequest id =>
    obtain ⟨-, -, -, rfl⟩ := Database.claimRequest_eq_some hp
    exact hsame rfl
  | expand id =>
    obtain ⟨q, -, -, rfl⟩ := Database.expand_eq_some hp
    exact hsame rfl
  | publish token requestId output =>
    obtain ⟨a, r, c, -, -, -, hcatch⟩ := publish_eq_some hp
    rcases Database.catchup_eq_some hcatch with ⟨-, rfl⟩ | ⟨id, -, hi⟩
    · exact hsame rfl
    · exact hsame hi.readings
  | finishFailure token quarantine resource code =>
    obtain ⟨a, -, hp⟩ := Option.bind_eq_some_iff.mp hp
    cases hp
    exact hsame rfl

/-- What is due stays due unless a run ends. -/
theorem State.Invariant.due (h : s.Invariant lower) (hx : ∀ id, action ≠ .expand id)
    (hj : Reprocessing.step s.jobs (queueAction lower s action) = some jobs)
    (hp : perform lower s action = some db) {since : Nat}
    (hread : ∀ r ∈ db.readings, r ∈ s.db.readings ∨ since ≤ r.readAt)
    {eventId : Uuid} (hd : s.Due since eventId) : State.Due ⟨jobs, db⟩ since eventId ∨
      ∃ a ∈ s.jobs.attempts, a.eventId = eventId ∧
        (queueAction lower s action).ends = some a.token ∧
        ∀ e ∈ s.jobs.events, e.id = eventId → ¬ a.target < e.requestedGeneration := by
  have hdue := (h.moves hx hj).due (db.Behind since) (fun _ ho => ho) hd ?_ ?_
  · exact hdue.imp_right fun ⟨a, ha, hid, hends, hlatest, _⟩ => ⟨a, ha, hid, hends, hlatest⟩
  · rintro a - ⟨r, hr, htoken, hlt⟩
    rcases hread r hr with hr | hle
    · exact ⟨r, hr, htoken, hlt⟩
    · omega
  · rintro a hfresh ⟨r, hr, htoken, -⟩
    obtain ⟨b, hb, hbt⟩ := (h.mem_readings hp hr).1
    exact absurd (hbt.trans htoken) (Table.find_eq_none.mp hfresh b hb)

/-- The event of a run that ends: due again, or its run was the newest. -/
theorem State.Invariant.due_of_ends (h : s.Invariant lower) {token : Uuid} {a : Attempt}
    (ha : s.jobs.attempts.find token = some a) (hx : ∀ id, action ≠ .expand id)
    (hends : (queueAction lower s action).ends = some token)
    (hj : Reprocessing.step s.jobs (queueAction lower s action) = some jobs)
    (hp : perform lower s action = some db) (hsame : db.readings = s.db.readings) (since : Nat) :
    (∀ eventId, s.Due since eventId → eventId ≠ a.eventId → State.Due ⟨jobs, db⟩ since eventId) ∧
      (s.Superseded a → State.Due ⟨jobs, db⟩ since a.eventId) := by
  have hended : ∀ b ∈ s.jobs.attempts, (queueAction lower s action).ends = some b.token → b = a :=
    fun b hb hbt => by
      rw [hends] at hbt
      obtain ⟨ha, htoken⟩ := Table.find_eq_some.mp ha
      exact Table.eq_of_key_eq hb ha ((Option.some.inj hbt).symm.trans htoken.symm)
  have hread : ∀ r ∈ db.readings, r ∈ s.db.readings ∨ since ≤ r.readAt :=
    fun r hr => .inl (hsame ▸ hr)
  refine ⟨fun eventId hd hne => ?_, fun hsuperseded => ?_⟩
  · rcases h.due hx hj hp hread hd with hd | ⟨b, hb, hid, hbt, -⟩
    · exact hd
    · rw [hended b hb hbt] at hid
      exact absurd hid.symm hne
  · obtain ⟨b, e, hat, hheld⟩ := Reprocessing.held_of_ends h.kinds hends hj
    cases ha.symm.trans hat.attempt
    have hlt := hsuperseded e (Table.find_eq_some.mpr ⟨hat.event, hat.id⟩)
    rcases h.due hx hj hp hread (Reprocessing.due_of_held hat (fun _ ho => ho) hheld hlt) with
      hd | ⟨b, hb, hid, hbt, hlatest⟩
    · exact hd
    · rw [hended b hb hbt] at hlatest
      exact absurd hlt (hlatest e hat.event hat.id)

/-! ## Expansions -/

/-- The candidates are some of those that remain, in order. -/
theorem Database.mem_candidates {q : Request} :
    (s.db.automaticReprocessingCandidates lower q).Pairwise (· ≤ ·) ∧
      ∀ eventId ∈ s.db.automaticReprocessingCandidates lower q,
        ∀ cursor ∈ q.cursor, cursor < eventId := by
  unfold Database.automaticReprocessingCandidates
  split
  · exact ⟨List.Pairwise.nil, nofun⟩
  · next m _ =>
    split
    · next r _ _ =>
      have hsorted : (s.db.remaining lower q m r).Pairwise (· ≤ ·) :=
        List.pairwise_insertionSort _ _
      refine ⟨hsorted.sublist (List.take_sublist _ _), fun eventId hin => ?_⟩
      have hremaining : eventId ∈ s.db.remaining lower q m r := List.mem_of_mem_take hin
      exact (Database.mem_remaining.mp hremaining).1
    · exact ⟨List.Pairwise.nil, nofun⟩

theorem Database.batch_eq {id : Uuid} {q : Request} (hq : s.db.requests.find id = some q) :
    s.db.batch lower id =
      (s.db.automaticReprocessingCandidates lower q).take automaticReprocessingBatch := by
  unfold Database.batch
  rw [hq]

theorem Database.batch_above {id eventId : Uuid} {q : Request}
    (hq : s.db.requests.find id = some q) (hin : eventId ∈ s.db.batch lower id) :
    ∀ cursor ∈ q.cursor, cursor < eventId := by
  rw [Database.batch_eq hq] at hin
  exact Database.mem_candidates.2 eventId (List.mem_of_mem_take hin)

/-- A request that goes on has come to the whole batch. -/
theorem Database.batch_below {id : Uuid} {q : Request} (hq : s.db.requests.find id = some q)
    (hopen : (q.expanded (s.db.automaticReprocessingCandidates lower q)).unfinished) :
    ∃ cursor ∈ (q.expanded (s.db.automaticReprocessingCandidates lower q)).cursor,
      cursor ∈ s.db.batch lower id ∧ ∀ eventId ∈ s.db.batch lower id, eventId ≤ cursor := by
  rw [Database.batch_eq hq]
  have hsorted : (s.db.automaticReprocessingCandidates lower q).Pairwise (· ≤ ·) :=
    Database.mem_candidates.1
  unfold Request.expanded at *
  split_ifs at * with hlong
  · have hlast := List.getLast?_eq_some_getLast (KeysetPage.take_ne_nil (by decide) hlong)
    exact ⟨_, hlast, KeysetPage.le_last_of_take hsorted hlast⟩
  · exact absurd rfl hopen

/-! ## The invariant -/

/-- The rows of an event belong to requests that have come to it. -/
theorem State.Invariant.keepsKnown (h : s.Invariant lower)
    (hj : Reprocessing.step s.jobs (queueAction lower s action) = some jobs)
    (hp : perform lower s action = some db) {eventId requestId : Uuid}
    (hr : jobs.Requested eventId requestId) : ∃ q ∈ db.requests,
      q.id = requestId ∧ (q.unfinished → ∃ cursor ∈ q.cursor, eventId ≤ cursor) := by
  by_cases hx : ∃ id, action = .expand id
  · obtain ⟨id, rfl⟩ := hx
    obtain ⟨u, hu, rfl⟩ := schedule_eq_some hj
    obtain ⟨q, hq, hunfinished, rfl⟩ := Database.expand_eq_some hp
    have hqid := (Table.find_eq_some.mp hq).2
    rcases Reprocessing.requested_putAll hu hr with hold | ⟨rfl, hin⟩
    · obtain ⟨q₁, hq₁, hid, hbelow⟩ := h.known _ _ hold
      by_cases hne : q₁.id = id
      · have hqq : q₁ = q :=
          Table.eq_of_key_eq hq₁ (Table.find_eq_some.mp hq).1 (hne.trans hqid.symm)
        subst hqq
        refine ⟨_, (Database.mem_expand hq).mpr (.inr rfl), Request.expanded_id.trans hid,
          fun hopen => ?_⟩
        obtain ⟨cursor, hcursor, hin, -⟩ := Database.batch_below hq hopen
        obtain ⟨old, hold, hle⟩ := hbelow hunfinished
        have habove := Database.batch_above hq hin old hold
        exact ⟨cursor, hcursor, hle.trans habove.le⟩
      · exact ⟨q₁, (Database.mem_expand hq).mpr (.inl ⟨hq₁, hne⟩), hid, hbelow⟩
    · refine ⟨_, (Database.mem_expand hq).mpr (.inr rfl), Request.expanded_id.trans hqid,
        fun hopen => ?_⟩
      obtain ⟨cursor, hcursor, -, hbelow⟩ := Database.batch_below hq hopen
      exact ⟨cursor, hcursor, hbelow eventId hin⟩
  · have hmoves := h.moves (fun id hid => hx ⟨id, hid⟩) hj
    obtain ⟨q, hq, hid, hbelow⟩ := h.known _ _ (hmoves.requested hr)
    have hsame : (∀ q ∈ s.db.requests, q ∈ db.requests) → ∃ q ∈ db.requests,
        q.id = requestId ∧ (q.unfinished → ∃ cursor ∈ q.cursor, eventId ≤ cursor) :=
      fun hkept => ⟨q, hkept q hq, hid, hbelow⟩
    cases action with
    | expand id => exact absurd ⟨id, rfl⟩ hx
    | tick seconds | beginClaim id | claim id eventId holder | heartbeat token
    | releaseJob token seconds resource dependency code =>
      cases hp
      exact hsame fun _ hq => hq
    | receive eventId =>
      obtain ⟨-, rfl⟩ := receive_eq_some hp
      exact hsame fun _ hq => hq
    | createRelease id key =>
      obtain ⟨-, rfl⟩ := Database.createRelease_eq_some hp
      exact hsame fun _ hq => hq
    | read token lookup =>
      obtain ⟨-, release, -, rfl⟩ := read_eq_some hp
      exact hsame fun _ hq => hq
    | negotiate id releaseId artifact =>
      exact hsame fun _ hq => (Database.withdraws_of_negotiate hp).requests ▸ hq
    | withdraw id =>
      exact hsame fun _ hq => (Database.withdraws_of_withdraw h.sound hp).requests ▸ hq
    | makeAvailable id requestId =>
      obtain ⟨m, -, hi⟩ := Database.makeAvailable_eq_some hp
      exact hsame hi.kept
    | claimRequest id =>
      obtain ⟨q₀, hq₀, hopen, rfl⟩ := Database.claimRequest_eq_some hp
      by_cases hne : q.id = id
      · have hqq : q = q₀ := Table.eq_of_key_eq hq (Table.find_eq_some.mp hq₀).1
          (hne.trans (Table.find_eq_some.mp hq₀).2.symm)
        subst hqq
        refine ⟨{ q with state := .scheduling }, ?_, hid, fun _ => hbelow hopen⟩
        simp only [Table.mem_modify]
        exact .inr ⟨q, hq₀, rfl⟩
      · refine ⟨q, ?_, hid, hbelow⟩
        simp only [Table.mem_modify]
        exact .inl ⟨hq, hne⟩
    | publish token requestId output =>
      obtain ⟨a, r, c, -, -, -, hcatch⟩ := publish_eq_some hp
      rcases Database.catchup_eq_some hcatch with ⟨-, rfl⟩ | ⟨id, -, hi⟩
      · exact hsame fun _ hq => hq
      · exact hsame hi.kept
    | finishFailure token quarantine resource code =>
      obtain ⟨a, -, hp⟩ := Option.bind_eq_some_iff.mp hp
      cases hp
      exact hsame fun _ hq => hq

theorem State.Invariant.keepsSound (h : s.Invariant lower)
    (hp : perform lower s action = some db) : db.Sound (s.now + 1) := by
  have hs := h.sound.mono (Nat.le_succ s.now)
  cases action with
  | tick seconds | beginClaim id | claim id eventId holder | heartbeat token
  | releaseJob token seconds resource dependency code =>
    cases hp
    exact hs
  | receive eventId =>
    obtain ⟨hfresh, rfl⟩ := receive_eq_some hp
    have hmem : ∀ c, c ∈ s.db.crashes.insert ⟨eventId, s.now, none⟩ ↔
        c = ⟨eventId, s.now, none⟩ ∨ c ∈ s.db.crashes := fun c => Table.mem_insert hfresh
    refine ⟨hs.release, hs.available, fun c hc => ?_, fun c hc p hp => ?_⟩
    · rcases (hmem c).mp hc with rfl | hc
      · exact Nat.le_succ _
      · exact hs.received c hc
    · rcases (hmem c).mp hc with rfl | hc
      · cases hp
      · exact hs.created c hc p hp
  | createRelease id key =>
    obtain ⟨hfresh, rfl⟩ := Database.createRelease_eq_some hp
    refine ⟨fun m hm => ?_, hs.available, hs.received, hs.created⟩
    obtain ⟨r, hr, hid, harch⟩ := hs.release m hm
    exact ⟨r, (Table.mem_insert hfresh).mpr (.inr hr), hid, harch⟩
  | read token lookup =>
    obtain ⟨-, release, -, rfl⟩ := read_eq_some hp
    exact ⟨hs.release, hs.available, hs.received, hs.created⟩
  | negotiate id releaseId artifact => exact (Database.withdraws_of_negotiate hp).sound hs
  | withdraw id => exact (Database.withdraws_of_withdraw hs hp).sound hs
  | makeAvailable id requestId =>
    obtain ⟨m, hm, hi⟩ := Database.makeAvailable_eq_some hp
    exact (hi.sound (h.sound.setAvailable hm)).mono (Nat.le_succ _)
  | claimRequest id =>
    obtain ⟨-, -, -, rfl⟩ := Database.claimRequest_eq_some hp
    exact ⟨hs.release, hs.available, hs.received, hs.created⟩
  | expand id =>
    obtain ⟨q, -, -, rfl⟩ := Database.expand_eq_some hp
    exact ⟨hs.release, hs.available, hs.received, hs.created⟩
  | publish token requestId output =>
    obtain ⟨a, r, c, -, -, -, hcatch⟩ := publish_eq_some hp
    have hcurrent : (s.db.setCurrent a.eventId fun _ =>
        some (r.published output s.now)).Sound (s.now + 1) := by
      refine hs.setCurrent fun c _ p hp => ?_
      cases hp
      exact Nat.le_succ _
    rcases Database.catchup_eq_some hcatch with ⟨-, rfl⟩ | ⟨id, -, hi⟩
    · exact hcurrent
    · exact hi.sound hcurrent
  | finishFailure token quarantine resource code =>
    obtain ⟨a, -, hp⟩ := Option.bind_eq_some_iff.mp hp
    cases hp
    refine hs.setCurrent fun c hc p hp => ?_
    obtain ⟨p₀, hp₀, rfl⟩ := Option.map_eq_some_iff.mp hp
    have hcreated := hs.created c (Table.find_eq_some.mp hc).1 p₀ hp₀
    split
    · exact hcreated
    · exact hcreated

theorem State.Invariant.keepsCovered (h : s.Invariant lower) (hu : Undisturbed lower s action)
    (hj : Reprocessing.step s.jobs (queueAction lower s action) = some jobs)
    (hp : perform lower s action = some db) : db.Covered lower (State.Due ⟨jobs, db⟩) := by
  have hcovered : (∀ id, action ≠ .expand id) → (queueAction lower s action).ends = none →
      s.db.Covered lower (State.Due ⟨jobs, db⟩) := fun hx hends =>
    h.covered.mono h.sound fun since hsince eventId hd => by
      have hread : ∀ r ∈ db.readings, r ∈ s.db.readings ∨ since ≤ r.readAt := fun r hr =>
        (h.mem_readings hp hr).2.imp_right hsince.trans
      refine (h.due hx hj hp hread hd).resolve_right fun ⟨a, _, _, ha, _⟩ => ?_
      rw [hends] at ha
      cases ha
  cases action with
  | tick seconds | beginClaim id | claim id eventId holder | heartbeat token
  | releaseJob token seconds resource dependency code =>
    cases hp
    exact hcovered (fun _ => nofun) rfl
  | receive eventId => exact (hcovered (fun _ => nofun) rfl).receive hp
  | createRelease id key => exact (hcovered (fun _ => nofun) rfl).createRelease h.sound hp
  | read token lookup =>
    have hdue := hcovered (fun _ => nofun) rfl
    obtain ⟨-, release, -, rfl⟩ := read_eq_some hp
    exact hdue
  | negotiate id releaseId artifact =>
    exact (Database.withdraws_of_negotiate hp).covered (hcovered (fun _ => nofun) rfl) hu
  | withdraw id =>
    exact (Database.withdraws_of_withdraw h.sound hp).covered (hcovered (fun _ => nofun) rfl) hu
  | makeAvailable id requestId =>
    exact (hcovered (fun _ => nofun) rfl).makeAvailable h.sound hu hp
  | claimRequest id => exact (hcovered (fun _ => nofun) rfl).claimRequest hp
  | expand id =>
    obtain ⟨u, hscheduled, rfl⟩ := schedule_eq_some hj
    have hexpand := hp
    obtain ⟨q, hq, hopen, rfl⟩ := Database.expand_eq_some hp
    refine h.covered.expand hexpand (fun since eventId hd => ?_) fun since eventId hin => ?_
    · have hdue := Reprocessing.State.Due.putAll (fun _ ho => ho) hd hscheduled
      exact hdue
    · have hnew : ¬ s.jobs.Requested eventId id := fun hrequested => by
        obtain ⟨q₁, hq₁, hid, hbelow⟩ := h.known _ _ hrequested
        have hqq : q₁ = q := Table.eq_of_key_eq hq₁ (Table.find_eq_some.mp hq).1
          (hid.trans (Table.find_eq_some.mp hq).2.symm)
        subst hqq
        obtain ⟨cursor, hcursor, hle⟩ := hbelow hopen
        exact absurd (Database.batch_above hq hin cursor hcursor) (Nat.not_lt.mpr hle)
      have hdue : u.Due (·.terminal) (s.db.Behind since) eventId :=
        Reprocessing.due_of_putAll (fun _ ho => ho) (h.queue.mono (Nat.le_succ _)) h.kinds (Nat.lt_succ_self _) hin hnew hscheduled
      exact hdue
  | publish token requestId output =>
    obtain ⟨a, r, c, ha, hr, hc, hcatch⟩ := publish_eq_some hp
    have hsame : db.readings = s.db.readings := by
      rcases Database.catchup_eq_some hcatch with ⟨-, rfl⟩ | ⟨id, -, hi⟩
      · rfl
      · exact hi.readings
    have hx : ∀ id, Action.publish token requestId output ≠ .expand id := fun _ => nofun
    have hends := fun since => h.due_of_ends ha hx rfl hj hp hsame since
    refine h.covered.publish h.sound (fun since => (hends since).1) ?_ hcatch
    rcases hu a ha with hsuperseded | hcatches
    · exact .inl fun since => (hends since).2 hsuperseded
    · exact .inr (hcatches r hr)
  | finishFailure token quarantine resource code =>
    have hfail := hp
    obtain ⟨a, ha, hp⟩ := Option.bind_eq_some_iff.mp hp
    cases hp
    have hx : ∀ id, Action.finishFailure token quarantine resource code ≠ .expand id :=
      fun _ => nofun
    have hends := fun since => h.due_of_ends ha hx rfl hj hfail rfl since
    refine h.covered.finishFailure (fun since => (hends since).1) ?_
    rcases hu a ha with hsuperseded | hnone
    · exact .inl fun since => (hends since).2 hsuperseded
    · exact .inr hnone

theorem State.Invariant.step (h : s.Invariant lower) {s' : State} (hu : Undisturbed lower s action)
    (hs : SymbolWakeups.step lower s action = some s') : s'.Invariant lower := by
  obtain ⟨jobs, db, hj, hp, rfl⟩ := step_eq_some hs
  have hclock := step_clock hj
  refine ⟨h.queue.step h.benign hj, fun a ha => ?_, ?_, fun r hr => ?_,
    fun eventId requestId hr => h.keepsKnown hj hp hr, h.keepsCovered hu hj hp⟩
  · rcases h.mem_attempts hj ha with ha | ⟨-, hkind⟩
    · exact h.kinds a ha
    · exact hkind
  · have hsound := h.keepsSound hp
    rwa [← hclock] at hsound
  · obtain ⟨a, ha, htoken⟩ := (h.mem_readings hp hr).1
    exact ⟨a, h.attempts_subset hj ha, htoken⟩

theorem State.Invariant.init : State.Invariant lower .init where
  queue := Reprocessing.Invariant.init
  kinds := nofun
  sound := ⟨nofun, nofun, nofun, nofun⟩
  readings := nofun
  known := by
    rintro eventId requestId ⟨e, he, -⟩
    cases he
  covered := nofun

theorem invariant_of_reachable
    (h : Reachable (restrict (SymbolWakeups.step lower) (Undisturbed lower)) (fun _ => True)
      .init s) : s.Invariant lower :=
  h.invariant (State.Invariant lower) .init fun _ _ _ _ hi hs _ =>
    hi.step (restrict_eq_some.mp hs).1 (restrict_eq_some.mp hs).2

end

def sampleKey : ReleaseLookup := ⟨"1.0", "windows", "x86_64", "Shipping"⟩

def samplePdb : SelectedArtifact :=
  ⟨"object", "key", [1], 10, "pdb", "Game.pdb", "x86_64", "A-1", none⟩

/-- A run reads that there is no release, and then the release and its artifact come. -/
def lateArtifact : List Action :=
  [.receive 1, .beginClaim 1, .claim 1 1 ⟨7, 71⟩, .read 71 (some sampleKey),
    .createRelease "release" sampleKey, .negotiate 5 "release" samplePdb, .makeAvailable 5 9]

/-- The run publishes before the request of the artifact is expanded. -/
def publishedFirst : List Action := lateArtifact ++
  [.publish 71 10 ⟨20, .awaitingSymbols, ∅⟩, .claimRequest 9, .expand 9, .beginClaim 2,
    .claim 2 1 ⟨7, 72⟩, .read 72 (some sampleKey), .publish 72 11 ⟨21, .processed, ∅⟩]

/-- The run publishes after the request of the artifact has found nothing. -/
def publishedLast : List Action := lateArtifact ++
  [.claimRequest 9, .expand 9, .publish 71 10 ⟨20, .awaitingSymbols, ∅⟩]

instance (s : State) : Decidable s.Quiet :=
  decidable_of_iff ((∀ q ∈ s.db.requests.rows, ¬ q.unfinished) ∧
    ∀ e ∈ s.jobs.events.rows, e.processJob.state.terminal)
    ⟨fun h => ⟨h.1, h.2⟩, fun h => ⟨h.1, h.2⟩⟩

instance (lower : String → String) (s : State) : Decidable (s.AllAwake lower) :=
  inferInstanceAs (Decidable (∀ c ∈ s.db.crashes.rows, ∀ p ∈ c.current,
    ∀ m ∈ s.db.artifacts.rows, ∀ since ∈ m.availableAt, _))

end FaultLane.SymbolWakeups
