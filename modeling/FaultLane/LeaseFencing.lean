import FaultLane.LeaseFence
import FaultLane.WorkerQueueSteps

set_option autoImplicit false

/-!
# The lease token fences the workers

A token is current for a job while the job carries it. A step of a worker changes a job or
what jobs name only while its token is current, except for the update of
`mark_cache_processing`, which comes after its look at the lease and locks no row of `jobs`.
-/
namespace FaultLane.WorkerQueue
open KeyedTable JobQueue TransitionSystem LeaseFence

/-! ## The fence of the queue -/

def State.currentToken (s : State) (jobId : Uuid) : Option Uuid :=
  ((s.jobs.find jobId).bind fun r => r.job.state.lease).map Lease.token

def State.fence (s : State) : Fence Uuid Uuid where
  current := s.currentToken
  used := { token | ∃ w ∈ s.claimed, w.token = token }

/-- The job of a worker carries the worker's lease. -/
def State.holdsLease (s : State) (w : ClaimedJob) : Prop :=
  ∃ r ∈ s.jobs.find w.jobId, r.job.holds w.holder

instance (s : State) (w : ClaimedJob) : Decidable (s.holdsLease w) :=
  inferInstanceAs (Decidable (∃ r ∈ s.jobs.find w.jobId, _))

/-- A lease belongs to a claimed job, a claimed job to a claim that is over, and an open
transaction to the holder of the lease. -/
structure State.Sound (s : State) : Prop where
  leased : ∀ r ∈ s.jobs, ∀ lease ∈ r.job.state.lease,
    ∃ w ∈ s.claimed, w.jobId = r.id ∧ lease.heldBy w.holder
  granted : ∀ w ∈ s.claimed, ∃ c ∈ s.claims, c.token = w.token ∧ c.phase = .done
  locked : ∀ t ∈ s.transactions, ∃ w ∈ s.claimed, w.token = t.token ∧ w.jobId = t.jobId ∧
    ∃ r ∈ s.jobs, r.id = t.jobId ∧ r.job.holds w.holder

section
variable {s s' : State} {token startedAt limit : Nat} {a : Action}

theorem currentToken_eq_some {jobId : Uuid} :
    s.currentToken jobId = some token ↔
      ∃ r ∈ s.jobs, r.id = jobId ∧ ∃ lease ∈ r.job.state.lease, lease.token = token := by
  simp only [State.currentToken, Option.map_eq_some_iff, Option.bind_eq_some_iff,
    Table.find_eq_some, Option.mem_def]
  constructor
  · rintro ⟨lease, ⟨r, ⟨hr, hid⟩, hlease⟩, htoken⟩
    exact ⟨r, hr, hid, lease, hlease, htoken⟩
  · rintro ⟨r, hr, hid, lease, hlease, htoken⟩
    exact ⟨lease, ⟨r, ⟨hr, hid⟩, hlease⟩, htoken⟩

theorem holdsLease_iff {w : ClaimedJob} :
    s.holdsLease w ↔ ∃ r ∈ s.jobs, r.id = w.jobId ∧ r.job.holds w.holder := by
  simp only [State.holdsLease, Option.mem_def, Table.find_eq_some, and_assoc]

theorem currentToken_of_holdsLease {w : ClaimedJob} (h : s.holdsLease w) :
    s.currentToken w.jobId = some w.token := by
  obtain ⟨r, hr, hid, hholds⟩ := holdsLease_iff.mp h
  obtain ⟨lease, hlease, hheld⟩ := Job.holds_iff.mp hholds
  exact currentToken_eq_some.mpr ⟨r, hr, hid, lease, hlease, hheld.2⟩

theorem renews_heldBy {j j' : Job} {h : Holder} (hr : j.Renews h j') {lease : Lease}
    (hl : lease ∈ j'.state.lease) : lease.heldBy h := by
  have hholds : j'.holds ⟨lease.owner, lease.token⟩ := Job.holds_iff.mpr ⟨lease, hl, rfl, rfl⟩
  have heq : ⟨lease.owner, lease.token⟩ = h := (hr.holds _).mp hholds
  exact ⟨congrArg Holder.owner heq, congrArg Holder.token heq⟩

/-- A token is current for one job. -/
theorem State.Sound.fence (h : s.Sound) : s.fence.Sound where
  used k t hk := by
    obtain ⟨r, hr, -, lease, hlease, htoken⟩ := currentToken_eq_some.mp hk
    obtain ⟨w, hw, -, hheld⟩ := h.leased r hr lease hlease
    exact ⟨w, hw, hheld.2.symm.trans htoken⟩
  unique k k' t hk hk' := by
    obtain ⟨r, hr, hid, lease, hlease, htoken⟩ := currentToken_eq_some.mp hk
    obtain ⟨r', hr', hid', lease', hlease', htoken'⟩ := currentToken_eq_some.mp hk'
    obtain ⟨w, hw, hjob, hheld⟩ := h.leased r hr lease hlease
    obtain ⟨w', hw', hjob', hheld'⟩ := h.leased r' hr' lease' hlease'
    have htokens : w.token = w'.token :=
      (hheld.2.symm.trans htoken).trans (htoken'.symm.trans hheld'.2)
    obtain rfl := Table.eq_of_key_eq hw hw' htokens
    exact hid.symm.trans (hjob.symm.trans (hjob'.trans hid'))

/-! ## The invariant -/

theorem State.Sound.setJob (h : s.Sound) {jobId : Uuid} {j : Job}
    (hunlocked : s.transactions.find jobId = none)
    (hj : ∀ lease ∈ j.state.lease, ∃ w ∈ s.claimed, w.jobId = jobId ∧ lease.heldBy w.holder) :
    (s.setJob jobId j).Sound where
  leased r hr lease hlease := by
    rcases mem_setJob.mp hr with ⟨hr, -⟩ | ⟨r₀, -, hid, rfl⟩
    · exact h.leased r hr lease hlease
    · obtain ⟨w, hw, hjob, hheld⟩ := hj lease hlease
      exact ⟨w, hw, hjob.trans hid.symm, hheld⟩
  granted := h.granted
  locked t ht := by
    obtain ⟨w, hw, htoken, hjob, r, hr, hid, hholds⟩ := h.locked t ht
    have hne : r.id ≠ jobId := by
      intro heq
      exact Table.find_eq_none.mp hunlocked t ht (hid.symm.trans heq)
    exact ⟨w, hw, htoken, hjob, r, mem_setJob.mpr (.inl ⟨hr, hne⟩), hid, hholds⟩

/-- A claim that holds a lock has not handed its token out. -/
theorem State.Sound.fresh (h : s.Sound) {c : Claim} (hc : c ∈ s.claims) (hp : c.phase ≠ .done) :
    s.claimed.find c.token = none := by
  refine Table.find_eq_none.mpr fun w hw hwt => ?_
  obtain ⟨c', hc', htoken, hdone⟩ := h.granted w hw
  obtain rfl := Table.eq_of_key_eq hc' hc (htoken.trans hwt)
  exact hp hdone

theorem State.Sound.quiet (h : s.Sound) (jobs : s'.jobs = s.jobs) (claimed : s'.claimed = s.claimed)
    (transactions : s'.transactions = s.transactions)
    (claims : ∀ c ∈ s.claims, c.phase = .done →
      ∃ c' ∈ s'.claims, c'.token = c.token ∧ c'.phase = .done) : s'.Sound := by
  refine ⟨?_, ?_, ?_⟩
  · rw [jobs, claimed]
    exact h.leased
  · rw [claimed]
    intro w hw
    obtain ⟨c, hc, htoken, hdone⟩ := h.granted w hw
    obtain ⟨c', hc', htoken', hdone'⟩ := claims c hc hdone
    exact ⟨c', hc', htoken'.trans htoken, hdone'⟩
  · rw [jobs, claimed, transactions]
    exact h.locked

theorem State.Sound.taken (h : s.Sound) {c : Claim} {w : ClaimedJob} {j : Job}
    (hc : c ∈ s.claims) (hp : c.phase ≠ .done) (hw : w.holder = c.holder)
    (hunlocked : s.transactions.find w.jobId = none)
    (hj : ∀ lease ∈ j.state.lease, lease.heldBy w.holder) :
    State.Sound { (s.setClaim c.token .done).setJob w.jobId j with
      claimed := s.claimed.insert w } := by
  have hfresh : s.claimed.find c.token = none := h.fresh hc hp
  have htoken : c.token = w.token := congrArg Holder.token hw.symm
  have hnew : s.claimed.find w.token = none := htoken ▸ hfresh
  refine ⟨fun r hr lease hlease => ?_, fun x hx => ?_, fun t ht => ?_⟩
  · rcases mem_setJob.mp hr with ⟨hr, -⟩ | ⟨r₀, -, hid, rfl⟩
    · obtain ⟨x, hx, hjob, hheld⟩ := h.leased r hr lease hlease
      exact ⟨x, (Table.mem_insert hnew).mpr (.inr hx), hjob, hheld⟩
    · exact ⟨w, (Table.mem_insert hnew).mpr (.inl rfl), hid.symm, hj lease hlease⟩
  · rcases (Table.mem_insert hnew).mp hx with rfl | hx
    · exact ⟨{ c with phase := .done }, mem_setClaim.mpr (.inr ⟨c, hc, rfl, rfl⟩), htoken, rfl⟩
    · obtain ⟨c', hc', hctoken, hdone⟩ := h.granted x hx
      have hne : c'.token ≠ c.token := by
        intro heq
        exact Table.find_eq_none.mp hfresh x hx (hctoken.symm.trans heq)
      exact ⟨c', mem_setClaim.mpr (.inl ⟨hc', hne⟩), hctoken, hdone⟩
  · obtain ⟨x, hx, hxtoken, hjob, r, hr, hid, hholds⟩ := h.locked t ht
    have hne : r.id ≠ w.jobId := by
      intro heq
      exact Table.find_eq_none.mp hunlocked t ht (hid.symm.trans heq)
    exact ⟨x, (Table.mem_insert hnew).mpr (.inr hx), hxtoken, hjob, r,
      mem_setJob.mpr (.inl ⟨hr, hne⟩), hid, hholds⟩

theorem State.Sound.change (h : s.Sound) (hs : Change s a s') : s'.Sound := by
  cases hs with
  | quiet now jobs claimed transactions claims => exact h.quiet jobs claimed transactions claims
  | @inserted _ r new free =>
    refine ⟨fun x hx lease hlease => ?_, h.granted, fun t ht => ?_⟩
    · rcases (Table.mem_insert new).mp hx with rfl | hx
      · exact nomatch free ▸ hlease
      · exact h.leased x hx lease hlease
    · obtain ⟨w, hw, htoken, hjob, x, hx, hrest⟩ := h.locked t ht
      exact ⟨w, hw, htoken, hjob, x, (Table.mem_insert new).mpr (.inr hx), hrest⟩
  | @taken c projectId locked r j claim phase candidate job =>
    refine h.taken (w := ⟨c.holder, r.id, _, _, _⟩) claim (by rw [phase]; nofun) rfl
      (candidate_eq_some candidate).2.2 fun lease hlease => ?_
    rw [(Job.claim_eq_some job).2] at hlease
    cases hlease
    exact ⟨rfl, rfl⟩
  | @renewed startedAt w r j worker row id started unlocked job =>
    exact h.setJob unlocked fun lease hlease =>
      ⟨w, worker, id.symm, renews_heldBy (Job.heartbeat_renews job) hlease⟩
  | @loosened _ r j row unlocked job =>
    exact h.setJob unlocked fun lease hlease => h.leased r row lease (job lease hlease)
  | @opened _ startedAt w r j worker row id unlocked job =>
    refine ⟨h.leased, h.granted, fun t ht => ?_⟩
    rcases (Table.mem_insert unlocked).mp ht with rfl | ht
    · exact ⟨w, worker, rfl, rfl, r, row, id, (Job.lockLease_renews job).held⟩
    · exact h.locked t ht
  | closed => exact ⟨h.leased, h.granted, fun t ht => h.locked t (Table.mem_delete.mp ht).1⟩
  | @committed _ jobId j targets free =>
    have hclosed : (s.closeTransaction jobId).Sound :=
      ⟨h.leased, h.granted, fun t ht => h.locked t (Table.mem_delete.mp ht).1⟩
    have hset : ((s.closeTransaction jobId).setJob jobId j).Sound :=
      hclosed.setJob (Table.find_delete_self _ _) fun lease hlease => nomatch free ▸ hlease
    exact ⟨hset.leased, hset.granted, hset.locked⟩

/-! ## Steps of the fence -/

theorem fence_of_jobs (jobs : s'.jobs = s.jobs) (claimed : s'.claimed = s.claimed) :
    s.fence.Step s'.fence := by
  have hcurrent : s'.currentToken = s.currentToken := by
    funext k
    rw [State.currentToken, jobs, State.currentToken]
  have heq : s'.fence = s.fence := by
    unfold State.fence
    rw [hcurrent, claimed]
  rw [heq]
  exact .of_le subset_rfl fun _ _ hk => hk

/-- A job that is changed without a new token. -/
theorem fence_setJob {jobId : Uuid} {j : Job}
    (hj : ∀ lease ∈ j.state.lease, s.currentToken jobId = some lease.token) :
    s.fence.Step (s.setJob jobId j).fence := by
  refine .of_le subset_rfl fun k t hk => ?_
  obtain ⟨r, hr, hid, lease, hlease, htoken⟩ := currentToken_eq_some.mp hk
  rcases mem_setJob.mp hr with ⟨hr, -⟩ | ⟨r₀, -, hid₀, rfl⟩
  · exact currentToken_eq_some.mpr ⟨r, hr, hid, lease, hlease, htoken⟩
  · have hkey : k = jobId := hid.symm.trans hid₀
    rw [← htoken]
    exact hkey ▸ hj lease hlease

theorem fence_taken (h : s.Sound) {c : Claim} {w : ClaimedJob} {j : Job} (hc : c ∈ s.claims)
    (hp : c.phase ≠ .done) (hw : w.holder = c.holder)
    (hj : ∀ lease ∈ j.state.lease, lease.heldBy w.holder) :
    s.fence.Step (State.fence { (s.setClaim c.token .done).setJob w.jobId j with
      claimed := s.claimed.insert w }) := by
  have hnew : s.claimed.find w.token = none := by
    rw [ClaimedJob.token, hw]
    exact h.fresh hc hp
  have hgranted : ∀ k t, (s.setJob w.jobId j).currentToken k = some t →
      s.currentToken k = some t ∨ (k = w.jobId ∧ t = w.token) := by
    intro k t hk
    obtain ⟨x, hx, hid, lease, hlease, ht⟩ := currentToken_eq_some.mp hk
    rcases mem_setJob.mp hx with ⟨hx, -⟩ | ⟨r₀, -, hid₀, rfl⟩
    · exact .inl (currentToken_eq_some.mpr ⟨x, hx, hid, lease, hlease, ht⟩)
    · exact .inr ⟨hid.symm.trans hid₀, ht.symm.trans (hj lease hlease).2⟩
  have hunused : w.token ∉ s.fence.used := by
    rintro ⟨x, hx, hxt⟩
    exact Table.find_eq_none.mp hnew x hx hxt
  refine ⟨?_, fun k t hk hold => ?_⟩
  · rintro t ⟨x, hx, hxt⟩
    exact ⟨x, (Table.mem_insert hnew).mpr (.inr hx), hxt⟩
  · obtain ⟨rfl, rfl⟩ := (hgranted k t hk).resolve_left hold
    refine ⟨hunused, ⟨w, (Table.mem_insert hnew).mpr (.inl rfl), rfl⟩, fun k' hk' => ?_⟩
    rcases hgranted k' w.token hk' with hk' | ⟨rfl, -⟩
    · exact absurd (h.fence.used k' w.token hk') hunused
    · rfl

/-- The queue hands out fencing tokens. -/
theorem change_fence (h : s.Sound) (hs : Change s a s') : s.fence.Step s'.fence := by
  cases hs with
  | quiet now jobs claimed transactions claims => exact fence_of_jobs jobs claimed
  | @inserted _ r new free =>
    refine .of_le subset_rfl fun k t hk => ?_
    obtain ⟨x, hx, hid, lease, hlease, htoken⟩ := currentToken_eq_some.mp hk
    rcases (Table.mem_insert new).mp hx with rfl | hx
    · exact nomatch free ▸ hlease
    · exact currentToken_eq_some.mpr ⟨x, hx, hid, lease, hlease, htoken⟩
  | @taken c projectId locked r j claim phase candidate job =>
    refine fence_taken h (w := ⟨c.holder, r.id, _, _, _⟩) claim (by rw [phase]; nofun) rfl
      fun lease hlease => ?_
    rw [(Job.claim_eq_some job).2] at hlease
    cases hlease
    exact ⟨rfl, rfl⟩
  | @renewed startedAt w r j worker row id started unlocked job =>
    have hrenews : r.job.Renews w.holder j := Job.heartbeat_renews job
    refine fence_setJob fun lease hlease => ?_
    rw [id, (renews_heldBy hrenews hlease).2]
    exact currentToken_of_holdsLease (holdsLease_iff.mpr ⟨r, row, id, hrenews.held⟩)
  | @loosened _ r j row unlocked job =>
    exact fence_setJob fun lease hlease =>
      currentToken_eq_some.mpr ⟨r, row, rfl, lease, job lease hlease, rfl⟩
  | opened | closed => exact fence_of_jobs rfl rfl
  | committed free =>
    exact fence_setJob (s := s.closeTransaction _) fun lease hlease => nomatch free ▸ hlease

end

/-! ## Fencing -/

/-- The token is current for the job that was claimed with it. -/
def State.current (s : State) (token : Uuid) : Prop := ∃ w ∈ s.claimed.find token, s.holdsLease w

instance (s : State) (token : Uuid) : Decidable (s.current token) :=
  inferInstanceAs (Decidable (∃ w ∈ s.claimed.find token, _))

/-- The steps of a worker on the job that it claimed. -/
def Action.worker : Action → Option Uuid
  | .heartbeat token _ | .releaseJob token _ _ _ _ _ | .lockLease token _ | .commit token _
  | .rollback token | .readMark token | .applyMark token => some token
  | _ => none

/-- The commits that complete, fail, requeue, release or publish. -/
def Action.settles : Action → Option Uuid
  | .releaseJob token _ _ _ _ _ | .commit token _ => some token
  | _ => none

/-- A job has one holder, a token is current for one job, and a token settles its job once and
while it is current. -/
structure State.OneCommit (take : State → Action → Option State) (s : State) : Prop where
  oneHolder : ∀ r ∈ s.jobs, ∀ h k, r.job.holds h → r.job.holds k → h = k
  oneJob : ∀ r ∈ s.jobs, ∀ r' ∈ s.jobs, ∀ h k, r.job.holds h → r'.job.holds k →
    h.token = k.token → r = r'
  settled : ∀ a s' token, a.settles = some token → take s a = some s' → s.current token
  once : ∀ a s' token, a.settles = some token → take s a = some s' →
    ∀ u, Reachable take (fun _ => True) s' u → ∀ b, b.settles = some token → take u b = none

/-- A worker changes jobs and what they name only under the current token, and one whose token
is no longer current never does again. -/
structure State.Fenced (take : State → Action → Option State) (s : State) : Prop
    extends s.OneCommit take where
  guarded : ∀ a s' token, a.worker = some token → take s a = some s' →
    s.current token ∨ (s'.jobs = s.jobs ∧ s'.targets = s.targets)
  lost : ∀ token, (s.claimed.find token).isSome → ¬ s.current token →
    ∀ u, Reachable take (fun _ => True) s u → ∀ b v, b.worker = some token → take u b = some v →
      v.jobs = u.jobs ∧ v.targets = u.targets

/-- A mark is written while the lease that it was read under is still held. -/
def MarksInTime (s : State) : Action → Prop
  | .applyMark token => s.current token
  | _ => True

instance (s : State) : DecidablePred (MarksInTime s) := by
  intro a
  unfold MarksInTime
  split <;> infer_instance

section
variable {s s' : State} {token limit : Nat} {a : Action}

theorem current_iff : s.current token ↔ ∃ w ∈ s.claimed, w.token = token ∧ s.holdsLease w := by
  simp only [State.current, Option.mem_def, Table.find_eq_some, and_assoc]

theorem not_current_of_retired (h : s.fence.Retired token) : ¬ s.current token := by
  intro hcurrent
  obtain ⟨w, -, rfl, hheld⟩ := current_iff.mp hcurrent
  exact h.2 w.jobId (currentToken_of_holdsLease hheld)

theorem State.Sound.retired (h : s.Sound) (hused : (s.claimed.find token).isSome)
    (hnot : ¬ s.current token) : s.fence.Retired token := by
  obtain ⟨w, hw⟩ := Option.isSome_iff_exists.mp hused
  obtain ⟨hw, hwt⟩ := Table.find_eq_some.mp hw
  refine ⟨⟨w, hw, hwt⟩, fun k hk => hnot ?_⟩
  obtain ⟨r, hr, -, lease, hlease, htoken⟩ := currentToken_eq_some.mp hk
  obtain ⟨x, hx, hjob, hheld⟩ := h.leased r hr lease hlease
  exact current_iff.mpr ⟨x, hx, hheld.2.symm.trans htoken,
    holdsLease_iff.mpr ⟨r, hr, hjob.symm, Job.holds_iff.mpr ⟨lease, hlease, hheld⟩⟩⟩

/-- The token of a settled job was current and is current for no job afterwards. -/
theorem settles_retired (h : s.Sound) (ha : a.settles = some token)
    (hs : step limit s a = some s') : s.current token ∧ s'.fence.Retired token := by
  have hleft : ∀ w j, s.holdsLease w → w.token = token → j.state.lease = none →
      s'.jobs = (s.setJob w.jobId j).jobs → s.fence.Step s'.fence → s'.fence.Retired token := by
    intro w j hheld hwt hnone hjobs hstep
    refine h.fence.retired_of_left hstep (hwt ▸ currentToken_of_holdsLease hheld) fun hk => ?_
    obtain ⟨r, hr, hid, lease, hlease, -⟩ := currentToken_eq_some.mp hk
    rw [hjobs] at hr
    rcases mem_setJob.mp hr with ⟨-, hne⟩ | ⟨r₀, -, -, rfl⟩
    · exact hne hid
    · exact nomatch hnone ▸ hlease
  have hstep : s.fence.Step s'.fence := change_fence h (step_change hs)
  cases a with
  | releaseJob token' startedAt seconds resource dependency code =>
    cases ha
    obtain ⟨⟨w, r⟩, hlock, hs⟩ := Option.bind_eq_some_iff.mp hs
    obtain ⟨j, hj, hs⟩ := Option.bind_eq_some_iff.mp hs
    cases hs
    obtain ⟨hw, hwt, hr, hid, -, -⟩ := lockJob_eq_some hlock
    have hends : r.job.Ends w.holder j := (Job.release_ends hj).1
    have hheld : s.holdsLease w := holdsLease_iff.mpr ⟨r, hr, hid, hends.held⟩
    exact ⟨current_iff.mpr ⟨w, hw, hwt, hheld⟩, hleft w j hheld hwt hends.lease (hid ▸ rfl) hstep⟩
  | commit token' p =>
    cases ha
    obtain ⟨w, t, targets, ending, j, hopen, -, hj, rfl⟩ := commit_eq_some hs
    obtain ⟨hw, hwt, ht, hjob, htt⟩ := openTransaction_eq_some hopen
    obtain ⟨x, hx, hxt, -, r, hr, hid, hholds⟩ := h.locked t ht
    obtain rfl := Table.eq_of_key_eq hx hw ((hxt.trans htt).trans hwt.symm)
    have hheld : s.holdsLease x := holdsLease_iff.mpr ⟨r, hr, hid.trans hjob, hholds⟩
    exact ⟨current_iff.mpr ⟨x, hx, hwt, hheld⟩,
      hleft x j hheld hwt (Ending.apply_ends hj) rfl hstep⟩
  | _ => cases ha

/-- What a worker changes, it changes under the current token. -/
theorem worker_guarded (h : s.Sound) (ha : a.worker = some token) (hin : MarksInTime s a)
    (hs : step limit s a = some s') :
    s.current token ∨ (s'.jobs = s.jobs ∧ s'.targets = s.targets) := by
  cases a with
  | heartbeat token' startedAt =>
    cases ha
    obtain ⟨⟨w, r⟩, hlock, hs⟩ := Option.bind_eq_some_iff.mp hs
    obtain ⟨j, hj, -⟩ := Option.bind_eq_some_iff.mp hs
    obtain ⟨hw, hwt, hr, hid, -, -⟩ := lockJob_eq_some hlock
    have hheld : s.holdsLease w := holdsLease_iff.mpr ⟨r, hr, hid, (Job.heartbeat_renews hj).held⟩
    exact .inl (current_iff.mpr ⟨w, hw, hwt, hheld⟩)
  | releaseJob | commit =>
    cases ha
    exact .inl (settles_retired h rfl hs).1
  | lockLease token' startedAt =>
    obtain ⟨⟨w, r⟩, -, hs⟩ := Option.bind_eq_some_iff.mp hs
    obtain ⟨j, -, hs⟩ := Option.bind_eq_some_iff.mp hs
    cases hs
    exact .inr ⟨rfl, rfl⟩
  | rollback token' =>
    obtain ⟨⟨w, t⟩, -, hs⟩ := Option.bind_eq_some_iff.mp hs
    cases hs
    exact .inr ⟨rfl, rfl⟩
  | readMark token' =>
    obtain ⟨w, -, hs⟩ := Option.bind_eq_some_iff.mp hs
    obtain ⟨r, -, hs⟩ := Option.bind_eq_some_iff.mp hs
    split at hs
    · obtain ⟨-, hs⟩ := Option.ite_none_right_eq_some.mp hs
      cases hs
      exact .inr ⟨rfl, rfl⟩
    all_goals cases hs
  | applyMark token' =>
    cases ha
    exact .inl hin
  | _ => cases ha

/-! ## Runs -/

theorem sound_init (targets : Targets) : (State.init targets).Sound :=
  ⟨nofun, nofun, nofun⟩

section
variable {take : State → Action → Option State} {init : State}
  (htake : ∀ s a s', take s a = some s' → step limit s a = some s')
include htake

theorem sound_of_reachable (h : init.Sound) (hr : Reachable take (fun _ => True) init s) :
    s.Sound :=
  hr.invariant State.Sound h fun s a s' _ hi hs _ => hi.change (step_change (htake s a s' hs))

theorem retired_of_reachable (h : init.Sound) (ht : init.fence.Retired token)
    (hr : Reachable take (fun _ => True) init s) : s.fence.Retired token := by
  have hboth : s.Sound ∧ s.fence.Retired token := by
    refine hr.invariant (fun s => s.Sound ∧ s.fence.Retired token) ⟨h, ht⟩ ?_
    intro s a s' _ ⟨hi, ht⟩ hs _
    have hchange : Change s a s' := step_change (htake s a s' hs)
    exact ⟨hi.change hchange, (change_fence hi hchange).retired ht⟩
  exact hboth.2

theorem State.Sound.oneCommit (h : s.Sound) : s.OneCommit take := by
  refine ⟨?_, ?_, ?_, ?_⟩
  · intro r _ k k' hk hk'
    exact Job.holds_unique hk hk'
  · intro r hr r' hr' k k' hk hk' htoken
    obtain ⟨lease, hlease, hheld⟩ := Job.holds_iff.mp hk
    obtain ⟨lease', hlease', hheld'⟩ := Job.holds_iff.mp hk'
    have hid : r.id = r'.id := h.fence.unique r.id r'.id k.token
      (currentToken_eq_some.mpr ⟨r, hr, rfl, lease, hlease, hheld.2⟩)
      (currentToken_eq_some.mpr ⟨r', hr', rfl, lease', hlease', hheld'.2.trans htoken.symm⟩)
    exact Table.eq_of_key_eq hr hr' hid
  · intro a s' token ha hs
    exact (settles_retired h ha (htake s a s' hs)).1
  · intro a s' token ha hs u hu b hb
    have hs : step limit s a = some s' := htake s a s' hs
    have hsound : s'.Sound := h.change (step_change hs)
    have hretired : u.fence.Retired token :=
      retired_of_reachable htake hsound (settles_retired h ha hs).2 hu
    refine Option.eq_none_iff_forall_ne_some.mpr fun v hv => ?_
    have hcurrent : u.current token :=
      (settles_retired (sound_of_reachable htake hsound hu) hb (htake u b v hv)).1
    exact not_current_of_retired hretired hcurrent

end

/-- In every run, whatever a mark does. -/
theorem oneCommit_of_reachable {targets : Targets}
    (h : Reachable (step limit) (fun _ => True) (.init targets) s) : s.OneCommit (step limit) :=
  (sound_of_reachable (fun _ _ _ hs => hs) (sound_init targets) h).oneCommit fun _ _ _ hs => hs

end

theorem fenced_of_reachable {limit : Nat} {targets : Targets} {s : State}
    (h : Reachable (restrict (step limit) MarksInTime) (fun _ => True) (.init targets) s) :
    s.Fenced (restrict (step limit) MarksInTime) := by
  have htake : ∀ s a s', restrict (step limit) MarksInTime s a = some s' →
      step limit s a = some s' := fun _ _ _ hs => (restrict_eq_some.mp hs).2
  have hsound : s.Sound := sound_of_reachable htake (sound_init targets) h
  refine ⟨hsound.oneCommit htake, ?_, ?_⟩
  · intro a s' token ha hs
    obtain ⟨hin, hs⟩ := restrict_eq_some.mp hs
    exact worker_guarded hsound ha hin hs
  · intro token hused hnot u hu b v hb hv
    obtain ⟨hin, hv⟩ := restrict_eq_some.mp hv
    have hretired : u.fence.Retired token :=
      retired_of_reachable htake hsound (hsound.retired hused hnot) hu
    exact (worker_guarded (sound_of_reachable htake hsound hu) hb hin hv).resolve_left
      (not_current_of_retired hretired)

/-! ## A cache job that is claimed twice -/

section sample

def sampleTargets : Targets where
  events := .empty
  uploads := .empty
  caches := Table.empty.insert ⟨7, 3, "symcache", .pending⟩
  raw _ := ⟨⟨1, 10, 10, 30, 0, none, false⟩, .empty, .empty, .empty, .empty, ⟨0, 0, true⟩, .empty⟩

def claimRun (h : Holder) (startedAt : Nat) : List Action :=
  [.beginClaim h startedAt, .lockProject h.token [], .takeJob h.token []]

/-- The first worker reads its lease in the last second of it, and loses it. -/
def reclaimedRun : List Action :=
  .insertJob 1 3 (.generateSymcache 7) 50 :: claimRun ⟨10, 100⟩ 0 ++
    [.tick 299, .readMark 100, .tick 1] ++ claimRun ⟨20, 200⟩ 300

def publishedRun : List Action :=
  reclaimedRun ++ [.readMark 200, .applyMark 200, .lockLease 200 300,
    .commit 200 (.cache "symcache" [1] 5)]

theorem fenced_publishedRun :
    ∃ s, Reachable (restrict (step 1) MarksInTime) (fun _ => True) (.init sampleTargets) s ∧
      s.Fenced (restrict (step 1) MarksInTime) ∧ ∃ r ∈ s.jobs, r.job.state = .completed := by
  have hrun : (run (restrict (step 1) MarksInTime) (fun _ => True) (.init sampleTargets)
      publishedRun).isSome := by
    decide +kernel
  obtain ⟨s, hs⟩ := Option.isSome_iff_exists.mp hrun
  have hreach := Reachable.of_run (.init trivial) hs
  have hrows : ∀ u ∈ run (restrict (step 1) MarksInTime) (fun _ => True) (.init sampleTargets)
      publishedRun, ∃ r ∈ u.jobs.rows, r.job.state = .completed := by
    decide +kernel
  exact ⟨s, hreach, fenced_of_reachable hreach, hrows s hs⟩

/-- The first worker still moves the cache of the second one to `processing`. -/
theorem not_fenced_of_mark :
    ¬ ∀ limit targets s, Reachable (step limit) (fun _ => True) (.init targets) s →
      s.Fenced (step limit) := by
  intro hfenced
  have hrun : (run (step 1) (fun _ => True) (.init sampleTargets) reclaimedRun).isSome := by
    decide +kernel
  obtain ⟨s, hs⟩ := Option.isSome_iff_exists.mp hrun
  have hlost : ∀ u ∈ run (step 1) (fun _ => True) (.init sampleTargets) reclaimedRun,
      ¬ u.current 100 ∧ (u.targets.caches.find 7).map DerivedCache.state = some .pending ∧
        ∀ v ∈ step 1 u (.applyMark 100),
          (v.targets.caches.find 7).map DerivedCache.state = some .processing := by
    decide +kernel
  have hmark : ∀ u ∈ run (step 1) (fun _ => True) (.init sampleTargets) reclaimedRun,
      (step 1 u (.applyMark 100)).isSome := by
    decide +kernel
  obtain ⟨v, hv⟩ := Option.isSome_iff_exists.mp (hmark s hs)
  obtain ⟨hnot, hpending, hprocessing⟩ := hlost s hs
  have hreach := Reachable.of_run (.init trivial) hs
  obtain ⟨-, htargets⟩ :=
    ((hfenced 1 sampleTargets s hreach).guarded _ v 100 rfl hv).resolve_left hnot
  have hstate := hprocessing v hv
  rw [htargets, hpending] at hstate
  cases hstate

end sample
end FaultLane.WorkerQueue
