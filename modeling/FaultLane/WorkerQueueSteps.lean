import FaultLane.WorkerQueueRuns

set_option autoImplicit false

/-!
# What a step of the queue changes

The effect of each statement on the jobs, and the kinds of change that a step can be.
-/
namespace FaultLane.WorkerQueue
open KeyedTable JobQueue

/-! ## What the statements do -/

section
variable {s s' : State} {token startedAt : Nat}

theorem lockJob_eq_some {w : ClaimedJob} {r : JobRow} (h : s.lockJob token startedAt = some (w, r)) :
    w ∈ s.claimed ∧ w.token = token ∧ r ∈ s.jobs ∧ r.id = w.jobId ∧ startedAt ≤ s.now ∧
      s.transactions.find w.jobId = none := by
  obtain ⟨w', hw, h⟩ := Option.bind_eq_some_iff.mp h
  obtain ⟨r', hr, h⟩ := Option.bind_eq_some_iff.mp h
  split_ifs at h with hlock
  cases h
  obtain ⟨hw, htoken⟩ := Table.find_eq_some.mp hw
  obtain ⟨hr, hid⟩ := Table.find_eq_some.mp hr
  exact ⟨hw, htoken, hr, hid, hlock.1, Option.isNone_iff_eq_none.mp hlock.2⟩

theorem openTransaction_eq_some {w : ClaimedJob} {t : Transaction}
    (h : s.openTransaction token = some (w, t)) :
    w ∈ s.claimed ∧ w.token = token ∧ t ∈ s.transactions ∧ t.jobId = w.jobId ∧
      t.token = token := by
  obtain ⟨w', hw, h⟩ := Option.bind_eq_some_iff.mp h
  obtain ⟨t', ht, h⟩ := Option.bind_eq_some_iff.mp h
  split_ifs at h with htoken
  cases h
  obtain ⟨hw, hwt⟩ := Table.find_eq_some.mp hw
  obtain ⟨ht, hid⟩ := Table.find_eq_some.mp ht
  exact ⟨hw, hwt, ht, hid, htoken⟩

theorem mem_setJob {r : JobRow} {jobId : Uuid} {j : Job} :
    r ∈ (s.setJob jobId j).jobs ↔
      (r ∈ s.jobs ∧ r.id ≠ jobId) ∨ ∃ r₀ ∈ s.jobs, r₀.id = jobId ∧ r = { r₀ with job := j } := by
  simp only [State.setJob, Table.mem_modify, Table.find_eq_some, and_assoc]

theorem mem_setClaim {c : Claim} {phase : ClaimPhase} :
    c ∈ (s.setClaim token phase).claims ↔
      (c ∈ s.claims ∧ c.token ≠ token) ∨
        ∃ c₀ ∈ s.claims, c₀.token = token ∧ c = { c₀ with phase := phase } := by
  simp only [State.setClaim, Table.mem_modify, Table.find_eq_some, and_assoc]

theorem candidate_eq_some {c : Claim} {projectId : Uuid} {locked : List Uuid} {r : JobRow}
    (h : s.candidate c projectId locked = some r) :
    r ∈ s.jobs ∧ r.job.claimable c.startedAt ∧ s.transactions.find r.id = none := by
  obtain ⟨r₀, -, h⟩ := List.exists_of_findSome?_eq_some h
  split_ifs at h with hlock
  obtain ⟨hr, hclaim⟩ := Option.filter_eq_some_iff.mp h
  obtain ⟨hr, hid⟩ := Table.find_eq_some.mp hr
  exact ⟨hr, of_decide_eq_true hclaim, hid ▸ Option.isNone_iff_eq_none.mp hlock.2.2.2⟩

theorem takeJob_eq_some {locked : List Uuid} (h : takeJob s token locked = some s') :
    ∃ c ∈ s.claims, c.token = token ∧ ∃ projectId, c.phase = .locked projectId ∧
      ((s.candidate c projectId locked = none ∧ s' = s.setClaim token .done) ∨
        ∃ r j, s.candidate c projectId locked = some r ∧ r.job.claim c.holder c.startedAt = some j ∧
          s' = { (s.setClaim token .done).setJob r.id j with
            claimed := s.claimed.insert
              ⟨c.holder, r.id, r.projectId, r.target, c.targetGeneration r.target⟩ }) := by
  obtain ⟨c, hc, h⟩ := Option.bind_eq_some_iff.mp h
  obtain ⟨hc, htoken⟩ := Table.find_eq_some.mp hc
  refine ⟨c, hc, htoken, ?_⟩
  split at h
  next projectId hphase =>
    refine ⟨projectId, hphase, ?_⟩
    split at h
    next r hr =>
      obtain ⟨j, hj, h⟩ := Option.bind_eq_some_iff.mp h
      cases h
      exact .inr ⟨r, j, hr, hj, rfl⟩
    next hnone =>
      cases h
      exact .inl ⟨hnone, rfl⟩
  all_goals cases h

theorem commit_eq_some {p : Publication} (h : commit s token p = some s') :
    ∃ w t targets ending j, s.openTransaction token = some (w, t) ∧
      s.targets.publish w p = some (targets, ending) ∧
      ending.apply t.job w.holder t.startedAt = some j ∧
      s' = { (s.closeTransaction w.jobId).setJob w.jobId j with targets := targets } := by
  obtain ⟨⟨w, t⟩, hopen, h⟩ := Option.bind_eq_some_iff.mp h
  obtain ⟨⟨targets, ending⟩, hpublish, h⟩ := Option.bind_eq_some_iff.mp h
  obtain ⟨j, hj, h⟩ := Option.bind_eq_some_iff.mp h
  cases h
  exact ⟨w, t, targets, ending, j, hopen, hpublish, hj, rfl⟩

theorem Ending.apply_ends {j j' : Job} {h : Holder} {now : Nat} {e : Ending}
    (he : e.apply j h now = some j') : j'.state.lease = none := by
  cases e with
  | complete failureCode => exact (Job.completeJob_ends he).1.lease
  | requeue => exact (Job.requeueForNewGeneration_ends he).1.lease
  | terminal quarantine resource code => exact (Job.terminalJob_ends he).1.lease

/-- A change to a job that hands out no lease. -/
def Revives (revive : Job → Nat → Job) : Prop :=
  ∀ j now, ∀ lease ∈ (revive j now).state.lease, lease ∈ j.state.lease

theorem reactivated_revives : Revives Job.reactivated := by
  intro j now lease hlease
  by_cases hl : j.state.lease.isSome
  · rwa [Job.reactivated_of_lease hl] at hlease
  · rw [Job.reactivated_state hl] at hlease
    cases hlease

theorem reset_revives : Revives Job.reset := by
  intro j now lease hlease
  by_cases ht : j.state.terminal
  · rw [Job.reset_state ht] at hlease
    cases hlease
  · rwa [Job.reset, if_neg ht] at hlease

theorem reviveJob_eq_some {jobId : Uuid} {revive : Job → Nat → Job}
    (h : reviveJob s jobId startedAt revive = some s') :
    ∃ r ∈ s.jobs, r.id = jobId ∧ s.transactions.find jobId = none ∧
      s' = s.setJob jobId (revive r.job startedAt) := by
  obtain ⟨r, hr, h⟩ := Option.bind_eq_some_iff.mp h
  obtain ⟨hr, hid⟩ := Table.find_eq_some.mp hr
  split_ifs at h with hlock
  cases h
  exact ⟨r, hr, hid, Option.isNone_iff_eq_none.mp hlock.2, rfl⟩

end

/-! ## The kinds of change -/

/-- What a step changes about jobs, leases and transactions, with the guard that it passed. -/
inductive Change (s : State) : Action → State → Prop where
  | quiet {a : Action} {s' : State} (now : s.now ≤ s'.now) (jobs : s'.jobs = s.jobs)
      (claimed : s'.claimed = s.claimed) (transactions : s'.transactions = s.transactions)
      (claims : ∀ c ∈ s.claims, c.phase = .done →
        ∃ c' ∈ s'.claims, c'.token = c.token ∧ c'.phase = .done) : Change s a s'
  | inserted {a : Action} {r : JobRow} (new : s.jobs.find r.id = none)
      (free : r.job.state.lease = none) : Change s a { s with jobs := s.jobs.insert r }
  | taken {c : Claim} {projectId : Uuid} {locked : List Uuid} {r : JobRow} {j : Job}
      (claim : c ∈ s.claims) (phase : c.phase = .locked projectId)
      (candidate : s.candidate c projectId locked = some r)
      (job : r.job.claim c.holder c.startedAt = some j) :
      Change s (.takeJob c.token locked)
        { (s.setClaim c.token .done).setJob r.id j with
          claimed := s.claimed.insert
            ⟨c.holder, r.id, r.projectId, r.target, c.targetGeneration r.target⟩ }
  | renewed {startedAt : Nat} {w : ClaimedJob} {r : JobRow} {j : Job} (worker : w ∈ s.claimed)
      (row : r ∈ s.jobs) (id : r.id = w.jobId) (started : startedAt ≤ s.now)
      (unlocked : s.transactions.find r.id = none)
      (job : r.job.heartbeat w.holder startedAt = some j) :
      Change s (.heartbeat w.token startedAt) (s.setJob r.id j)
  | loosened {a : Action} {r : JobRow} {j : Job} (row : r ∈ s.jobs)
      (unlocked : s.transactions.find r.id = none)
      (job : ∀ lease ∈ j.state.lease, lease ∈ r.job.state.lease) : Change s a (s.setJob r.id j)
  | opened {a : Action} {startedAt : Nat} {w : ClaimedJob} {r : JobRow} {j : Job}
      (worker : w ∈ s.claimed) (row : r ∈ s.jobs) (id : r.id = w.jobId)
      (unlocked : s.transactions.find w.jobId = none)
      (job : r.job.lockLease w.holder startedAt = some j) :
      Change s a { s with transactions := s.transactions.insert ⟨w.jobId, w.token, startedAt, j⟩ }
  | closed {a : Action} {jobId : Uuid} : Change s a (s.closeTransaction jobId)
  | committed {a : Action} {jobId : Uuid} {j : Job} {targets : Targets}
      (free : j.state.lease = none) :
      Change s a { (s.closeTransaction jobId).setJob jobId j with targets := targets }

section
variable {s s' : State} {limit : Nat} {a : Action}

theorem change_setClaim {token : Uuid} {phase : ClaimPhase}
    (hp : phase = .done ∨ ∀ c ∈ s.claims, c.token = token → c.phase ≠ .done) :
    Change s a (s.setClaim token phase) := by
  refine .quiet le_rfl rfl rfl rfl fun c hc hdone => ?_
  by_cases heq : c.token = token
  · have hphase : phase = .done := hp.resolve_right fun hne => hne c hc heq hdone
    exact ⟨{ c with phase := phase }, mem_setClaim.mpr (.inr ⟨c, hc, heq, rfl⟩), rfl, hphase⟩
  · exact ⟨c, mem_setClaim.mpr (.inl ⟨hc, heq⟩), rfl, hdone⟩

theorem change_reviveJob {jobId startedAt : Nat} {revive : Job → Nat → Job}
    (hrevive : Revives revive) (hs : reviveJob s jobId startedAt revive = some s') :
    Change s a s' := by
  obtain ⟨r, hr, rfl, hunlocked, rfl⟩ := reviveJob_eq_some hs
  exact .loosened hr hunlocked fun lease hlease => hrevive _ _ _ hlease

theorem step_change (hs : step limit s a = some s') : Change s a s' := by
  cases a with
  | tick seconds =>
    cases hs
    exact .quiet (Nat.le_add_right _ _) rfl rfl rfl fun c hc hdone => ⟨c, hc, rfl, hdone⟩
  | others targets =>
    cases hs
    exact .quiet le_rfl rfl rfl rfl fun c hc hdone => ⟨c, hc, rfl, hdone⟩
  | insertJob id projectId target priority =>
    obtain ⟨hnew, hs⟩ := Option.ite_none_left_eq_some.mp hs
    cases hs
    exact .inserted (Option.not_isSome_iff_eq_none.mp hnew) rfl
  | beginClaim holder startedAt =>
    obtain ⟨hnew, hs⟩ := Option.ite_none_right_eq_some.mp hs
    cases hs
    have hnew : s.claims.find holder.token = none := Option.isNone_iff_eq_none.mp hnew.1
    exact .quiet le_rfl rfl rfl rfl fun c hc hdone =>
      ⟨c, (Table.mem_insert hnew).mpr (.inr hc), rfl, hdone⟩
  | lockProject token locked =>
    obtain ⟨c, hc, hs⟩ := Option.bind_eq_some_iff.mp hs
    obtain ⟨hreading, hs⟩ := Option.ite_none_right_eq_some.mp hs
    cases hs
    obtain ⟨hc, hctoken⟩ := Table.find_eq_some.mp hc
    refine change_setClaim (.inr fun c' hc' htoken => ?_)
    obtain rfl := Table.eq_of_key_eq hc' hc (htoken.trans hctoken.symm)
    rw [hreading]
    nofun
  | takeJob token locked =>
    obtain ⟨c, hc, rfl, projectId, hphase, ⟨-, rfl⟩ | ⟨r, j, hr, hj, rfl⟩⟩ := takeJob_eq_some hs
    · exact change_setClaim (.inl rfl)
    · exact .taken hc hphase hr hj
  | abandonClaim token =>
    obtain ⟨c, -, hs⟩ := Option.bind_eq_some_iff.mp hs
    cases hs
    exact change_setClaim (.inl rfl)
  | heartbeat token startedAt =>
    obtain ⟨⟨w, r⟩, hlock, hs⟩ := Option.bind_eq_some_iff.mp hs
    obtain ⟨j, hj, hs⟩ := Option.bind_eq_some_iff.mp hs
    cases hs
    obtain ⟨hw, rfl, hr, hid, hstarted, hunlocked⟩ := lockJob_eq_some hlock
    exact .renewed hw hr hid hstarted (hid ▸ hunlocked) hj
  | releaseJob token startedAt seconds resource dependency code =>
    obtain ⟨⟨w, r⟩, hlock, hs⟩ := Option.bind_eq_some_iff.mp hs
    obtain ⟨j, hj, hs⟩ := Option.bind_eq_some_iff.mp hs
    cases hs
    obtain ⟨-, -, hr, hid, -, hunlocked⟩ := lockJob_eq_some hlock
    have hnone : j.state.lease = none := (Job.release_ends hj).1.lease
    exact .loosened hr (hid ▸ hunlocked) fun lease hlease => nomatch hnone ▸ hlease
  | lockLease token startedAt =>
    obtain ⟨⟨w, r⟩, hlock, hs⟩ := Option.bind_eq_some_iff.mp hs
    obtain ⟨j, hj, hs⟩ := Option.bind_eq_some_iff.mp hs
    cases hs
    obtain ⟨hw, rfl, hr, hid, -, hunlocked⟩ := lockJob_eq_some hlock
    exact .opened hw hr hid hunlocked hj
  | commit token p =>
    obtain ⟨w, t, targets, ending, j, -, -, hj, rfl⟩ := commit_eq_some hs
    exact .committed (Ending.apply_ends hj)
  | rollback token =>
    obtain ⟨⟨w, t⟩, -, hs⟩ := Option.bind_eq_some_iff.mp hs
    cases hs
    exact .closed
  | readMark token =>
    obtain ⟨w, -, hs⟩ := Option.bind_eq_some_iff.mp hs
    obtain ⟨r, -, hs⟩ := Option.bind_eq_some_iff.mp hs
    split at hs
    · obtain ⟨-, hs⟩ := Option.ite_none_right_eq_some.mp hs
      cases hs
      exact .quiet le_rfl rfl rfl rfl fun c hc hdone => ⟨c, hc, rfl, hdone⟩
    all_goals cases hs
  | applyMark token =>
    obtain ⟨w, -, hs⟩ := Option.bind_eq_some_iff.mp hs
    obtain ⟨-, hs⟩ := Option.ite_none_right_eq_some.mp hs
    split at hs
    · cases hs
      exact .quiet le_rfl rfl rfl rfl fun c hc hdone => ⟨c, hc, rfl, hdone⟩
    all_goals cases hs
  | reactivateJob jobId startedAt => exact change_reviveJob reactivated_revives hs
  | resetJob jobId startedAt => exact change_reviveJob reset_revives hs

end
end FaultLane.WorkerQueue
