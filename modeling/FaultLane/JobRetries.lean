import FaultLane.JobQueue
import FaultLane.TableTotals
import FaultLane.TransitionSystem
import Mathlib.Algebra.Order.Group.Nat

set_option autoImplicit false

/-!
# The retries of a job

One row of the job queue under the workers that claim it, run it and release it. An attempt
is counted at each claim, taken back by a wait for a dependency and by a cancellation, and
reset by a requeue. Along the runs that cancel no attempt past the limit, a pending job can be
claimed.
-/
namespace FaultLane.JobRetries
open KeyedTable JobQueue TransitionSystem

/-! ## Attempts of a worker -/

/-- The columns of the claimed row that the worker decides by. -/
structure ClaimedJob where
  holder : Holder
  attempt : Nat
  maxAttempt : Nat
  resourceFailures : Nat
  deriving DecidableEq, Repr

inductive JobError where
  | lostLease
  | dependency
  | deterministic (code : String)
  | resource (code : String)
  | transient (code : String)
  deriving DecidableEq, Repr

def ClaimedJob.resourceRetry (c : ClaimedJob) : Prop :=
  c.resourceFailures = 1 ∧ c.attempt = c.maxAttempt + 1

instance : DecidablePred ClaimedJob.resourceRetry := fun _ => inferInstanceAs (Decidable (_ ∧ _))

/-- `run_job` executes the operation of the job. -/
def ClaimedJob.executes (c : ClaimedJob) : Prop :=
  ¬ (c.maxAttempt < c.attempt ∧ ¬ c.resourceRetry)

instance : DecidablePred ClaimedJob.executes := fun _ => inferInstanceAs (Decidable (¬ _))

def ClaimedJob.runJob (c : ClaimedJob) (operation : JobError) : JobError :=
  if c.executes then operation else .transient "retry_exhausted"

/-- The statement of a worker that ends an attempt. -/
inductive Statement where
  | none
  | release (seconds : Nat) (resource dependency : Bool) (code : String)
  | failure (quarantine resource : Bool) (code : String)
  deriving DecidableEq, Repr

def ClaimedJob.retry (c : ClaimedJob) (code : String) (resource : Bool) : Statement :=
  .release (min (2 ^ min (c.attempt - 1) 6) 60) resource false code

def waitForDependency : Statement := .release 1 false true "dependency_pending"

def cancelJob : Statement := .release 0 false true "processing_cancelled"

def ClaimedJob.finishResult (c : ClaimedJob) : JobError → Statement
  | .lostLease => .none
  | .dependency => waitForDependency
  | .deterministic code => .failure true false code
  | .resource code =>
    if c.resourceFailures = 0 then c.retry code true else .failure true true code
  | .transient code =>
    if c.attempt < c.maxAttempt then c.retry code false else .failure false false code

/-! ## The job and its attempts -/

inductive AttemptEnd where
  | running
  | waived
  | resourceFailure
  | other
  deriving DecidableEq, Repr

/-- A claim of the job, with the number of the reset before it, the resource failures since
that reset and what released its lease. -/
structure Attempt where
  claimed : ClaimedJob
  epoch : Nat
  priorFailures : Nat
  ending : AttemptEnd
  deriving DecidableEq

abbrev Attempt.token (a : Attempt) : Uuid := a.claimed.holder.token

structure State where
  now : Nat
  job : Job
  epoch : Nat
  attempts : Table Attempt.token

def State.init (priority now maxAttempt : Nat) : State :=
  ⟨now, { Job.new priority now with maxAttempt := maxAttempt }, 0, .empty⟩

section step
variable (s : State)

/-- The attempts since the last reset. -/
def State.count (p : Attempt → Prop) [DecidablePred p] : Nat :=
  s.attempts.total fun a => if a.epoch = s.epoch ∧ p a then 1 else 0

def Attempt.failed (a : Attempt) : Prop := a.ending = .resourceFailure

def Attempt.counted (a : Attempt) : Prop := a.ending ≠ .waived

/-- The attempt executed the operation, and ended in neither a dependency wait nor a
cancellation. -/
def Attempt.executed (a : Attempt) : Prop := a.counted ∧ a.claimed.executes

instance : DecidablePred Attempt.failed := fun _ => inferInstanceAs (Decidable (_ = _))
instance : DecidablePred Attempt.counted := fun _ => inferInstanceAs (Decidable (_ ≠ _))
instance : DecidablePred Attempt.executed := fun _ => inferInstanceAs (Decidable (_ ∧ _))

def State.setEnding (token : Uuid) (ending : AttemptEnd) : State :=
  { s with
    attempts := s.attempts.modify token (fun a => { a with ending := ending }) fun _ => rfl }

def claim (h : Holder) : Option State := do
  let j ← s.job.claim h s.now
  if (s.attempts.find h.token).isSome then none
  else
    some { s with
      job := j
      attempts := s.attempts.insert
        ⟨⟨h, j.attempt, j.maxAttempt, j.resourceFailures⟩, s.epoch, s.count Attempt.failed,
          .running⟩ }

def heartbeat (token : Uuid) : Option State := do
  let a ← s.attempts.find token
  let j ← s.job.heartbeat a.claimed.holder s.now
  some { s with job := j }

def lockLease (token : Uuid) : Option State := do
  let a ← s.attempts.find token
  let j ← s.job.lockLease a.claimed.holder s.now
  some { s with job := j }

/-- `requeue_job_for_new_generation`. -/
def State.requeue (a : Attempt) : Option State := do
  let j ← s.job.requeueForNewGeneration a.claimed.holder s.now
  some { s.setEnding a.token .other with job := j, epoch := s.epoch + 1 }

def State.release (a : Attempt) (seconds : Nat) (resource dependency : Bool) (code : String) :
    Option State := do
  let j ← s.job.release a.claimed.holder s.now seconds resource dependency code
  some { s.setEnding a.token
    (if dependency then .waived else if resource then .resourceFailure else .other) with job := j }

/-- `finish_failure`, which requeues a crash whose event asks for a newer generation. -/
def State.finishFailure (a : Attempt) (quarantine resource : Bool) (code : String)
    (newGeneration : Bool) : Option State := do
  let j ← s.job.lockLease a.claimed.holder s.now
  let s := { s with job := j }
  if newGeneration then s.requeue a
  else do
    let j ← s.job.terminalJob a.claimed.holder quarantine resource code
    some { s.setEnding a.token (if resource then .resourceFailure else .other) with job := j }

def State.execute (a : Attempt) (newGeneration : Bool) : Statement → Option State
  | .none => none
  | .release seconds resource dependency code => s.release a seconds resource dependency code
  | .failure quarantine resource code => s.finishFailure a quarantine resource code newGeneration

/-- The operation ends with an error. A statement that fails leaves the attempt as it is. -/
def finish (token : Uuid) (operation : JobError) (newGeneration : Bool) : Option State := do
  let a ← s.attempts.find token
  s.execute a newGeneration (a.claimed.finishResult (a.claimed.runJob operation))

/-- The operation publishes its result. -/
def publish (token : Uuid) (newGeneration : Bool) (failureCode : Option String) :
    Option State := do
  let a ← s.attempts.find token
  if a.claimed.executes then do
    let j ← s.job.lockLease a.claimed.holder s.now
    let s := { s with job := j }
    if newGeneration then s.requeue a
    else do
      let j ← s.job.completeJob a.claimed.holder failureCode
      some { s.setEnding a.token .other with job := j }
  else none

/-- `stop_running_jobs` on one job. -/
def cancel (token : Uuid) : Option State := do
  let a ← s.attempts.find token
  s.execute a false cancelJob

/-- `schedule_reprocessing_events`. -/
def reactivate : Option State :=
  if s.job.state.lease.isSome then none
  else some { s with job := s.job.reactivated s.now, epoch := s.epoch + 1 }

/-- `reconcile_reprocessing_event_jobs`. -/
def reset : Option State :=
  if s.job.state.terminal then some { s with job := s.job.reset s.now, epoch := s.epoch + 1 }
  else none

end step

inductive Action where
  | tick (seconds : Nat)
  | claim (holder : Holder)
  | heartbeat (token : Uuid)
  | lockLease (token : Uuid)
  | finish (token : Uuid) (operation : JobError) (newGeneration : Bool)
  | publish (token : Uuid) (newGeneration : Bool) (failureCode : Option String)
  | cancel (token : Uuid)
  | reactivate
  | reset

def step (s : State) : Action → Option State
  | .tick seconds => some { s with now := s.now + seconds }
  | .claim holder => claim s holder
  | .heartbeat token => heartbeat s token
  | .lockLease token => lockLease s token
  | .finish token operation newGeneration => finish s token operation newGeneration
  | .publish token newGeneration failureCode => publish s token newGeneration failureCode
  | .cancel token => cancel s token
  | .reactivate => reactivate s
  | .reset => reset s

/-- A worker that stops cancels only attempts that execute their operation. -/
def CancelsInTime (s : State) : Action → Prop
  | .cancel token => ∀ a ∈ s.attempts.find token, a.claimed.executes
  | _ => True

instance (s : State) : DecidablePred (CancelsInTime s) := fun action => by
  cases action <;> unfold CancelsInTime <;> infer_instance

/-- Between two resets at most one execution more than the limit, after one resource failure.
A pending job can be claimed once it is due. -/
structure State.Disciplined (s : State) : Prop where
  executions : s.count Attempt.executed ≤ s.job.maxAttempt + 1
  extra : s.job.maxAttempt < s.count Attempt.executed → ∃ a ∈ s.attempts, a.epoch = s.epoch ∧
    a.executed ∧ a.claimed.attempt = s.job.maxAttempt + 1 ∧ a.priorFailures = 1
  claimable : s.job.state = .pending → ∀ now, s.job.availableAt ≤ now → s.job.claimable now

/-! ## Counts of attempts -/

section counts
variable {s s' : State} {a : Attempt}

/-- An attempt that executes is the last one of the limit at most, or the one after a resource
failure. -/
theorem ClaimedJob.executes.le {c : ClaimedJob} (h : c.executes) :
    c.attempt ≤ c.maxAttempt ∨ c.resourceRetry := by
  by_cases hr : c.resourceRetry
  · exact .inr hr
  · exact .inl (Nat.le_of_not_lt fun hlt => h ⟨hlt, hr⟩)

theorem count_le {p q : Attempt → Prop} [DecidablePred p] [DecidablePred q]
    (h : ∀ a, p a → q a) : s.count p ≤ s.count q := by
  unfold State.count Table.total
  refine List.sum_le_sum fun a _ => ?_
  by_cases hp : a.epoch = s.epoch ∧ p a
  · rw [if_pos hp, if_pos ⟨hp.1, h a hp.2⟩]
  · rw [if_neg hp]
    exact Nat.zero_le _

theorem count_new (h : ∀ a ∈ s.attempts, a.epoch < s.epoch) (p : Attempt → Prop)
    [DecidablePred p] : s.count p = 0 := by
  have hzero : s.count p = s.attempts.total fun _ => 0 := by
    refine Table.total_congr fun a ha => if_neg fun hp => ?_
    exact Nat.ne_of_lt (h a ha) hp.1
  rw [hzero]
  simp [Table.total]

theorem count_setEnding (ha : a ∈ s.attempts) (hepoch : a.epoch = s.epoch) (ending : AttemptEnd)
    (p : Attempt → Prop) [DecidablePred p] :
    (s.setEnding a.token ending).count p + (if p a then 1 else 0) =
      s.count p + if p { a with ending := ending } then 1 else 0 := by
  have hfind : s.attempts.find a.token = some a := Table.find_eq_some.mpr ⟨ha, rfl⟩
  have htotal := Table.total_modify (g := fun b : Attempt => { b with ending := ending })
    (fun _ => rfl) hfind fun b => if b.epoch = s.epoch ∧ p b then 1 else 0
  dsimp only at htotal
  rw [hepoch] at htotal
  simp only [true_and] at htotal
  have hcount : (s.setEnding a.token ending).count p =
      Table.total (s.setEnding a.token ending).attempts
        fun b => if b.epoch = s.epoch ∧ p b then 1 else 0 := rfl
  rw [hcount, State.count]
  simp only [hepoch]
  exact htotal

theorem mem_setEnding {token : Uuid} {ending : AttemptEnd} {b : Attempt} :
    b ∈ (s.setEnding token ending).attempts ↔ (b ∈ s.attempts ∧ b.token ≠ token) ∨
      ∃ a, s.attempts.find token = some a ∧ b = { a with ending := ending } :=
  @Table.mem_modify _ _ _ _ s.attempts token (fun a => { a with ending := ending })
    (fun _ => rfl) b

end counts

/-! ## The invariant -/

/-- The row counts the attempts since its last reset, and its lease belongs to the last one. -/
structure State.Sound (s : State) : Prop where
  limit : 0 < s.job.maxAttempt
  claimed : ∀ a ∈ s.attempts, a.epoch ≤ s.epoch ∧ a.claimed.maxAttempt = s.job.maxAttempt ∧
    a.claimed.resourceFailures = a.priorFailures
  held : ∀ h, s.job.holds h → ∃ a ∈ s.attempts, a.claimed.holder = h ∧ a.epoch = s.epoch ∧
    a.ending = .running ∧ a.claimed.attempt = s.job.attempt ∧
    a.claimed.resourceFailures = s.job.resourceFailures
  attempts : s.job.attempt = s.count Attempt.counted
  failures : s.job.resourceFailures = s.count Attempt.failed
  executions : s.count Attempt.executed ≤ s.job.maxAttempt + 1
  extra : s.job.maxAttempt < s.count Attempt.executed → ∃ a ∈ s.attempts, a.epoch = s.epoch ∧
    a.executed ∧ a.claimed.attempt = s.job.maxAttempt + 1

section sound
variable {s s' : State} {a : Attempt}

theorem sound_init (priority now : Nat) {maxAttempt : Nat} (h : 0 < maxAttempt) :
    (State.init priority now maxAttempt).Sound where
  limit := h
  claimed a ha := absurd ha (Table.not_mem_empty a)
  held _ hh := absurd hh (Job.not_holds_of_lease rfl)
  attempts := rfl
  failures := rfl
  executions := Nat.zero_le _
  extra hlt := absurd hlt (Nat.not_lt_zero _)

/-- The attempt of the holder. -/
theorem State.Sound.current (h : s.Sound) (ha : a ∈ s.attempts)
    (hh : s.job.holds a.claimed.holder) : a.epoch = s.epoch ∧ a.ending = .running ∧
      a.claimed.attempt = s.job.attempt ∧ a.claimed.resourceFailures = s.job.resourceFailures := by
  obtain ⟨b, hb, hholder, hrest⟩ := h.held _ hh
  obtain rfl := Table.eq_of_key_eq hb ha (congrArg Holder.token hholder)
  exact hrest

/-- A statement that renews the lease. -/
theorem State.Sound.renew (h : s.Sound) {k : Holder} {j : Job} (hr : s.job.Renews k j)
    (hattempt : j.attempt = s.job.attempt) (hmax : j.maxAttempt = s.job.maxAttempt)
    (hfailures : j.resourceFailures = s.job.resourceFailures) : { s with job := j }.Sound where
  limit := hmax ▸ h.limit
  claimed b hb := by
    obtain ⟨hepoch, hlimit, hprior⟩ := h.claimed b hb
    exact ⟨hepoch, hlimit.trans hmax.symm, hprior⟩
  held k' hk' := by
    obtain rfl := (hr.holds k').mp hk'
    obtain ⟨b, hb, hholder, hepoch, hrunning, hsame, hsame'⟩ := h.held k' hr.held
    exact ⟨b, hb, hholder, hepoch, hrunning, hsame.trans hattempt.symm, hsame'.trans hfailures.symm⟩
  attempts := hattempt.trans h.attempts
  failures := hfailures.trans h.failures
  executions := hmax ▸ h.executions
  extra hlt := by
    rw [hmax] at hlt ⊢
    exact h.extra hlt

theorem renewed_of_lockLease {j : Job} {k : Holder} {now : Nat}
    (h : s.job.lockLease k now = some j) : s.job.Renews k j ∧ j.attempt = s.job.attempt ∧
      j.maxAttempt = s.job.maxAttempt ∧ j.resourceFailures = s.job.resourceFailures := by
  refine ⟨Job.lockLease_renews h, ?_⟩
  unfold Job.lockLease at h
  split_ifs at h
  cases h
  exact ⟨rfl, rfl, rfl⟩

theorem State.Sound.lockLease (h : s.Sound) {j : Job} {k : Holder} {now : Nat}
    (hj : s.job.lockLease k now = some j) : { s with job := j }.Sound := by
  obtain ⟨hr, hattempt, hmax, hfailures⟩ := renewed_of_lockLease hj
  exact h.renew hr hattempt hmax hfailures

/-- The lease of an attempt ends with a change of the row that its ending accounts for. -/
theorem State.Sound.finished (h : s.Sound) (ha : a ∈ s.attempts) {j : Job}
    (he : s.job.Ends a.claimed.holder j) {ending : AttemptEnd}
    (hmax : j.maxAttempt = s.job.maxAttempt)
    (hattempt : j.attempt = s.job.attempt - if ending = .waived then 1 else 0)
    (hfailures : j.resourceFailures =
      s.job.resourceFailures + if ending = .resourceFailure then 1 else 0) :
    { s.setEnding a.token ending with job := j }.Sound := by
  obtain ⟨hepoch, hrunning, hsame, hsame'⟩ := h.current ha he.held
  have hcounted := count_setEnding ha hepoch ending Attempt.counted
  have hfailed := count_setEnding ha hepoch ending Attempt.failed
  have hexecuted := count_setEnding ha hepoch ending Attempt.executed
  have hiscounted : a.counted := by
    rw [Attempt.counted, hrunning]
    nofun
  have hnotfailed : ¬ a.failed := by
    rw [Attempt.failed, hrunning]
    nofun
  rw [if_pos hiscounted] at hcounted
  rw [if_neg hnotfailed] at hfailed
  have hends : (if Attempt.counted { a with ending := ending } then 1 else 0) =
      1 - if ending = .waived then 1 else 0 := by
    by_cases hw : ending = .waived
    · rw [if_pos hw, if_neg fun hc : Attempt.counted { a with ending := ending } => hc hw]
    · rw [if_neg hw, if_pos (show Attempt.counted { a with ending := ending } from hw)]
  have hfails : (if Attempt.failed { a with ending := ending } then 1 else 0) =
      if ending = .resourceFailure then 1 else 0 := rfl
  have hstays : (if Attempt.executed { a with ending := ending } then 1 else 0) ≤
      if a.executed then 1 else 0 := by
    by_cases hx : Attempt.executed { a with ending := ending }
    · rw [if_pos hx, if_pos ⟨hiscounted, hx.2⟩]
    · rw [if_neg hx]
      exact Nat.zero_le _
  refine ⟨hmax ▸ h.limit, fun b hb => ?_, fun k hk => absurd hk (Job.not_holds_of_lease he.lease),
    ?_, ?_, ?_, fun hlt => ?_⟩
  · change b.epoch ≤ s.epoch ∧ b.claimed.maxAttempt = j.maxAttempt ∧ _
    rw [hmax]
    rcases mem_setEnding.mp hb with ⟨hb, -⟩ | ⟨c, hc, rfl⟩
    · exact h.claimed b hb
    · exact h.claimed c (Table.find_eq_some.mp hc).1
  · change j.attempt = (s.setEnding a.token ending).count Attempt.counted
    have hold := h.attempts
    rw [hends] at hcounted
    split_ifs at hattempt hcounted <;> omega
  · change j.resourceFailures = (s.setEnding a.token ending).count Attempt.failed
    have hold := h.failures
    rw [hfails] at hfailed
    omega
  · change (s.setEnding a.token ending).count Attempt.executed ≤ j.maxAttempt + 1
    have hold := h.executions
    rw [hmax]
    omega
  · change j.maxAttempt < (s.setEnding a.token ending).count Attempt.executed at hlt
    change ∃ b ∈ (s.setEnding a.token ending).attempts, b.epoch = s.epoch ∧ b.executed ∧
      b.claimed.attempt = j.maxAttempt + 1
    rw [hmax] at hlt ⊢
    obtain ⟨b, hb, hbepoch, hbexecuted, hbattempt⟩ := h.extra (by omega)
    by_cases hid : b.token = a.token
    · obtain rfl := Table.eq_of_key_eq hb ha hid
      have hbound := h.executions
      rw [if_pos hbexecuted] at hexecuted hstays
      have hx : Attempt.executed { b with ending := ending } := by
        by_contra hx
        rw [if_neg hx] at hexecuted
        omega
      exact ⟨{ b with ending := ending },
        mem_setEnding.mpr (.inr ⟨b, Table.find_eq_some.mpr ⟨hb, rfl⟩, rfl⟩), hbepoch, hx, hbattempt⟩
    · exact ⟨b, mem_setEnding.mpr (.inl ⟨hb, hid⟩), hbepoch, hbexecuted, hbattempt⟩

/-- A reset of the row starts a new count. -/
theorem State.Sound.restart (h : s.Sound) {j : Job} {attempts : Table Attempt.token}
    (hrows : ∀ b ∈ attempts, ∃ c ∈ s.attempts, b.claimed = c.claimed ∧ b.epoch = c.epoch ∧
      b.priorFailures = c.priorFailures)
    (hlease : j.state.lease = none) (hmax : j.maxAttempt = s.job.maxAttempt)
    (hattempt : j.attempt = 0) (hfailures : j.resourceFailures = 0) :
    (State.mk s.now j (s.epoch + 1) attempts).Sound := by
  have hold : ∀ b ∈ attempts, b.epoch < s.epoch + 1 := by
    intro b hb
    obtain ⟨c, hc, -, hepoch, -⟩ := hrows b hb
    have hle := (h.claimed c hc).1
    omega
  have hzero (p : Attempt → Prop) [DecidablePred p] :
      (State.mk s.now j (s.epoch + 1) attempts).count p = 0 := count_new hold p
  refine ⟨hmax ▸ h.limit, fun b hb => ?_, fun k hk => absurd hk (Job.not_holds_of_lease hlease),
    ?_, ?_, ?_, fun hlt => ?_⟩
  · obtain ⟨c, hc, hclaimed, hepoch, hprior⟩ := hrows b hb
    obtain ⟨-, hlimit, hsame⟩ := h.claimed c hc
    rw [hclaimed, hprior]
    exact ⟨Nat.le_of_lt (hold b hb), hlimit.trans hmax.symm, hsame⟩
  · rw [hzero]
    exact hattempt
  · rw [hzero]
    exact hfailures
  · rw [hzero]
    exact Nat.zero_le _
  · rw [hzero] at hlt
    exact absurd hlt (Nat.not_lt_zero _)

theorem State.Sound.claim (h : s.Sound) {k : Holder} (hs : JobRetries.claim s k = some s') :
    s'.Sound := by
  obtain ⟨j, hj, hs⟩ := Option.bind_eq_some_iff.mp hs
  split_ifs at hs with hnew
  cases hs
  obtain ⟨-, hstate⟩ := Job.claim_eq_some hj
  have hj' : j.attempt = s.job.attempt + 1 ∧ j.maxAttempt = s.job.maxAttempt ∧
      j.resourceFailures = s.job.resourceFailures := by
    unfold Job.claim at hj
    split_ifs at hj
    cases hj
    exact ⟨rfl, rfl, rfl⟩
  obtain ⟨hattempt, hmax, hfailures⟩ := hj'
  let b : Attempt := ⟨⟨k, j.attempt, j.maxAttempt, j.resourceFailures⟩, s.epoch,
    s.count Attempt.failed, .running⟩
  have hnone : s.attempts.find b.token = none := Option.not_isSome_iff_eq_none.mp hnew
  have hrow (c : Attempt) : c ∈ s.attempts.insert b ↔ c = b ∨ c ∈ s.attempts :=
    Table.mem_insert hnone
  have hcount (p : Attempt → Prop) [DecidablePred p] :
      (State.mk s.now j s.epoch (s.attempts.insert b)).count p =
        (if p b then 1 else 0) + s.count p := by
    unfold State.count
    rw [Table.total_insert hnone]
    simp only [b, true_and]
  have hcounted : b.counted := by rintro ⟨⟩
  have hnotfailed : ¬ b.failed := by rintro ⟨⟩
  have hle : s.count Attempt.executed ≤ s.count Attempt.counted := count_le fun _ hx => hx.1
  have hold := h.attempts
  have hprior := h.failures
  refine ⟨hmax ▸ h.limit, fun c hc => ?_, fun k' hk' => ?_, ?_, ?_, ?_, fun hlt => ?_⟩
  · change c.epoch ≤ s.epoch ∧ c.claimed.maxAttempt = j.maxAttempt ∧ _
    rcases (hrow c).mp hc with rfl | hc
    · exact ⟨Nat.le_refl _, rfl, hfailures.trans hprior⟩
    · obtain ⟨hepoch, hlimit, hsame⟩ := h.claimed c hc
      exact ⟨hepoch, hlimit.trans hmax.symm, hsame⟩
  · obtain rfl := (Job.holds_of_state hstate).mp hk'
    exact ⟨b, (hrow b).mpr (.inl rfl), rfl, rfl, rfl, rfl, rfl⟩
  · rw [hcount, if_pos hcounted]
    change j.attempt = _
    omega
  · rw [hcount, if_neg hnotfailed]
    change j.resourceFailures = _
    omega
  · rw [hcount]
    change _ ≤ j.maxAttempt + 1
    have hbound := h.executions
    by_cases hx : b.executed
    · rw [if_pos hx]
      have hlimit : j.attempt ≤ j.maxAttempt + 1 := by
        rcases hx.2.le with hin | hretry
        · exact Nat.le_succ_of_le hin
        · exact Nat.le_of_eq hretry.2
      omega
    · rw [if_neg hx]
      omega
  · rw [hcount] at hlt
    change j.maxAttempt < _ at hlt
    change ∃ c ∈ s.attempts.insert b, c.epoch = s.epoch ∧ c.executed ∧
      c.claimed.attempt = j.maxAttempt + 1
    by_cases hx : b.executed
    · rw [if_pos hx] at hlt
      refine ⟨b, (hrow b).mpr (.inl rfl), rfl, hx, ?_⟩
      change j.attempt = j.maxAttempt + 1
      rcases hx.2.le with hin | hretry
      · change j.attempt ≤ j.maxAttempt at hin
        omega
      · exact hretry.2
    · rw [if_neg hx] at hlt
      obtain ⟨c, hc, hextra⟩ := h.extra (by omega)
      rw [hmax]
      exact ⟨c, (hrow c).mpr (.inr hc), hextra⟩

theorem State.Sound.requeue (h : s.Sound) (hs : s.requeue a = some s') :
    s'.Sound ∧ s'.job.retryable := by
  obtain ⟨j, hj, hs⟩ := Option.bind_eq_some_iff.mp hs
  cases hs
  have hj' : j.maxAttempt = s.job.maxAttempt ∧ j.attempt = 0 ∧ j.resourceFailures = 0 := by
    unfold Job.requeueForNewGeneration at hj
    split_ifs at hj
    cases hj
    exact ⟨rfl, rfl, rfl⟩
  obtain ⟨hmax, hattempt, hfailures⟩ := hj'
  refine ⟨h.restart (fun b hb => ?_) (Job.requeueForNewGeneration_ends hj).1.lease hmax hattempt
    hfailures, .inl ?_⟩
  · rcases mem_setEnding.mp hb with ⟨hb, -⟩ | ⟨c, hc, rfl⟩
    · exact ⟨b, hb, rfl, rfl, rfl⟩
    · exact ⟨c, (Table.find_eq_some.mp hc).1, rfl, rfl, rfl⟩
  · change j.attempt < j.maxAttempt
    rw [hattempt, hmax]
    exact h.limit

theorem State.Sound.release (h : s.Sound) (ha : a ∈ s.attempts) {seconds : Nat}
    {resource dependency : Bool} {code : String} (hone : dependency = true → resource = false)
    (hs : s.release a seconds resource dependency code = some s') : s'.Sound := by
  obtain ⟨j, hj, hs⟩ := Option.bind_eq_some_iff.mp hs
  cases hs
  have hends := (Job.release_ends hj).1
  rw [Job.release, if_pos hends.held] at hj
  cases hj
  refine h.finished ha hends rfl ?_ ?_
  · cases dependency <;> cases resource <;> rfl
  · cases dependency with
    | false => cases resource <;> rfl
    | true =>
      rw [hone rfl]
      rfl

theorem State.Sound.finishFailure (h : s.Sound) (ha : a ∈ s.attempts)
    {quarantine resource newGeneration : Bool} {code : String}
    (hs : s.finishFailure a quarantine resource code newGeneration = some s') :
    s'.Sound ∧ (s'.job.state = .pending → s'.job.retryable) := by
  obtain ⟨j, hj, hs⟩ := Option.bind_eq_some_iff.mp hs
  have hlocked := h.lockLease hj
  cases newGeneration with
  | true =>
    obtain ⟨hsound, hretryable⟩ := hlocked.requeue hs
    exact ⟨hsound, fun _ => hretryable⟩
  | false =>
    obtain ⟨j', hj', hs⟩ := Option.bind_eq_some_iff.mp hs
    cases hs
    obtain ⟨hends, hterminal⟩ := Job.terminalJob_ends hj'
    have hrow : j'.maxAttempt = j.maxAttempt ∧ j'.attempt = j.attempt ∧
        j'.resourceFailures = j.resourceFailures + if resource then 1 else 0 := by
      rw [Job.terminalJob, if_pos hends.held] at hj'
      cases hj'
      exact ⟨rfl, rfl, rfl⟩
    obtain ⟨hmax, hattempt, hfailures⟩ := hrow
    refine ⟨hlocked.finished ha hends hmax ?_ ?_, fun hpending => ?_⟩
    · rw [hattempt]
      cases resource <;> rfl
    · rw [hfailures]
      cases resource <;> rfl
    · change j'.state = .pending at hpending
      rw [hpending] at hterminal
      cases hterminal


/-! ## Every step -/

/-- A pending job meets the claim predicate. -/
def State.Pendable (s : State) : Prop := s.job.state = .pending → s.job.retryable

/-- An attempt that executed its operation gives its place back. -/
theorem State.Sound.waived (h : s.Sound) (ha : a ∈ s.attempts) (hx : a.claimed.executes)
    {seconds : Nat} {code : String} (hs : s.release a seconds false true code = some s') :
    s'.job.retryable := by
  obtain ⟨j, hj, hs⟩ := Option.bind_eq_some_iff.mp hs
  cases hs
  have hends := (Job.release_ends hj).1
  obtain ⟨-, -, hattempt, hfailures⟩ := h.current ha hends.held
  obtain ⟨-, hmax, -⟩ := h.claimed a ha
  rw [Job.release, if_pos hends.held] at hj
  cases hj
  change s.job.attempt - 1 < s.job.maxAttempt ∨
    (s.job.attempt - 1 = s.job.maxAttempt ∧ s.job.resourceFailures = 1)
  have hlimit := h.limit
  rcases hx.le with hin | ⟨hone, hextra⟩
  · exact .inl (by omega)
  · exact .inr ⟨by omega, hfailures.symm.trans hone⟩

/-- An attempt that is retried has room for another one. -/
theorem State.Sound.retried (h : s.Sound) (ha : a ∈ s.attempts) {seconds : Nat} {resource : Bool}
    {code : String} (hroom : a.claimed.attempt < a.claimed.maxAttempt ∨
      (a.claimed.attempt ≤ a.claimed.maxAttempt ∧ a.claimed.resourceFailures = 0 ∧ resource = true))
    (hs : s.release a seconds resource false code = some s') : s'.job.retryable := by
  obtain ⟨j, hj, hs⟩ := Option.bind_eq_some_iff.mp hs
  cases hs
  have hends := (Job.release_ends hj).1
  obtain ⟨-, -, hattempt, hfailures⟩ := h.current ha hends.held
  obtain ⟨-, hmax, -⟩ := h.claimed a ha
  rw [Job.release, if_pos hends.held] at hj
  cases hj
  change s.job.attempt - 0 < s.job.maxAttempt ∨ (s.job.attempt - 0 = s.job.maxAttempt ∧
    s.job.resourceFailures + (if resource then 1 else 0) = 1)
  rcases hroom with hlt | ⟨hle, hzero, rfl⟩
  · exact .inl (by omega)
  · by_cases hlt : s.job.attempt < s.job.maxAttempt
    · exact .inl hlt
    · refine .inr ⟨by omega, ?_⟩
      rw [← hfailures, hzero]
      rfl

/-- The statement that ends an attempt after its operation. -/
theorem State.Sound.finish (h : s.Sound) {token : Uuid} {operation : JobError}
    {newGeneration : Bool} (hs : JobRetries.finish s token operation newGeneration = some s') :
    s'.Sound ∧ s'.Pendable := by
  obtain ⟨a, ha, hs⟩ := Option.bind_eq_some_iff.mp hs
  have ha := (Table.find_eq_some.mp ha).1
  have hfail {quarantine resource : Bool} {code : String} (hstatement :
      s.finishFailure a quarantine resource code newGeneration = some s') :
      s'.Sound ∧ s'.Pendable := h.finishFailure ha hstatement
  unfold ClaimedJob.runJob at hs
  by_cases hx : a.claimed.executes
  · rw [if_pos hx] at hs
    cases operation with
    | lostLease => cases hs
    | dependency => exact ⟨h.release ha (fun _ => rfl) hs, fun _ => h.waived ha hx hs⟩
    | deterministic code => exact hfail hs
    | resource code =>
      unfold ClaimedJob.finishResult at hs
      dsimp only at hs
      split_ifs at hs with hzero
      · have hs : s.release a _ true false code = some s' := hs
        refine ⟨h.release ha (fun hd => by cases hd) hs,
          fun _ => h.retried ha (.inr ⟨?_, hzero, rfl⟩) hs⟩
        rcases hx.le with hin | ⟨hone, -⟩
        · exact hin
        · rw [hzero] at hone
          cases hone
      · exact hfail hs
    | transient code =>
      unfold ClaimedJob.finishResult at hs
      dsimp only at hs
      split_ifs at hs with hlt
      · exact ⟨h.release ha (fun _ => rfl) hs, fun _ => h.retried ha (.inl hlt) hs⟩
      · exact hfail hs
  · rw [if_neg hx] at hs
    have hpast : ¬ a.claimed.attempt < a.claimed.maxAttempt := by
      intro hlt
      exact hx fun hlate => Nat.lt_asymm hlt hlate.1
    unfold ClaimedJob.finishResult at hs
    dsimp only at hs
    rw [if_neg hpast] at hs
    exact hfail hs

theorem State.Sound.publish (h : s.Sound) {token : Uuid} {newGeneration : Bool}
    {failureCode : Option String}
    (hs : JobRetries.publish s token newGeneration failureCode = some s') :
    s'.Sound ∧ s'.Pendable := by
  obtain ⟨a, ha, hs⟩ := Option.bind_eq_some_iff.mp hs
  have ha := (Table.find_eq_some.mp ha).1
  by_cases hx : a.claimed.executes
  case neg =>
    rw [if_neg hx] at hs
    cases hs
  rw [if_pos hx] at hs
  obtain ⟨j, hj, hs⟩ := Option.bind_eq_some_iff.mp hs
  have hlocked := h.lockLease hj
  cases newGeneration with
  | true =>
    obtain ⟨hsound, hretryable⟩ := hlocked.requeue hs
    exact ⟨hsound, fun _ => hretryable⟩
  | false =>
    obtain ⟨j', hj', hs⟩ := Option.bind_eq_some_iff.mp hs
    cases hs
    obtain ⟨hends, hcompleted⟩ := Job.completeJob_ends hj'
    have hrow : j'.maxAttempt = j.maxAttempt ∧ j'.attempt = j.attempt ∧
        j'.resourceFailures = j.resourceFailures := by
      rw [Job.completeJob, if_pos hends.held] at hj'
      cases hj'
      exact ⟨rfl, rfl, rfl⟩
    obtain ⟨hmax, hattempt, hfailures⟩ := hrow
    refine ⟨hlocked.finished ha hends hmax hattempt hfailures, fun hpending => ?_⟩
    change j'.state = .pending at hpending
    rw [hcompleted] at hpending
    cases hpending

theorem State.Sound.cancel (h : s.Sound) {token : Uuid}
    (hs : JobRetries.cancel s token = some s') :
    s'.Sound ∧ ((∀ a ∈ s.attempts.find token, a.claimed.executes) → s'.Pendable) := by
  obtain ⟨a, hfind, hs⟩ := Option.bind_eq_some_iff.mp hs
  have ha := (Table.find_eq_some.mp hfind).1
  exact ⟨h.release ha (fun _ => rfl) hs, fun hx _ => h.waived ha (hx a hfind) hs⟩

theorem State.Sound.step (h : s.Sound) {action : Action}
    (hs : JobRetries.step s action = some s') :
    s'.Sound ∧ (CancelsInTime s action → s.Pendable → s'.Pendable) := by
  cases action with
  | tick seconds =>
    cases hs
    exact ⟨⟨h.limit, h.claimed, h.held, h.attempts, h.failures, h.executions, h.extra⟩,
      fun _ hp => hp⟩
  | claim k =>
    refine ⟨h.claim hs, fun _ _ hpending => ?_⟩
    obtain ⟨j, hj, hs⟩ := Option.bind_eq_some_iff.mp hs
    split_ifs at hs
    cases hs
    exact absurd ((Job.claim_eq_some hj).2.symm.trans hpending) (by rintro ⟨⟩)
  | heartbeat token =>
    obtain ⟨a, ha, hs⟩ := Option.bind_eq_some_iff.mp hs
    obtain ⟨j, hj, hs⟩ := Option.bind_eq_some_iff.mp hs
    cases hs
    have hrenews := Job.heartbeat_renews hj
    rw [Job.heartbeat, if_pos hrenews.held] at hj
    cases hj
    exact ⟨h.renew hrenews rfl rfl rfl, fun _ _ => by rintro ⟨⟩⟩
  | lockLease token =>
    obtain ⟨a, ha, hs⟩ := Option.bind_eq_some_iff.mp hs
    obtain ⟨j, hj, hs⟩ := Option.bind_eq_some_iff.mp hs
    cases hs
    refine ⟨h.lockLease hj, fun _ _ hpending => ?_⟩
    unfold Job.lockLease at hj
    split_ifs at hj
    cases hj
    cases hpending
  | finish token operation newGeneration =>
    obtain ⟨hsound, hpendable⟩ := h.finish hs
    exact ⟨hsound, fun _ _ => hpendable⟩
  | publish token newGeneration failureCode =>
    obtain ⟨hsound, hpendable⟩ := h.publish hs
    exact ⟨hsound, fun _ _ => hpendable⟩
  | cancel token =>
    obtain ⟨hsound, hpendable⟩ := h.cancel hs
    exact ⟨hsound, fun hc _ => hpendable hc⟩
  | reactivate =>
    unfold JobRetries.step JobRetries.reactivate at hs
    dsimp only at hs
    split_ifs at hs with hlease
    cases hs
    have hrow : s.job.reactivated s.now = { s.job with
        state := .pending
        priority := if s.job.state.terminal then 200 else s.job.priority
        attempt := 0
        resourceFailures := 0
        availableAt := s.now
        failureCode := none } := if_neg hlease
    rw [hrow]
    refine ⟨h.restart (fun b hb => ⟨b, hb, rfl, rfl, rfl⟩) rfl rfl rfl rfl, fun _ _ _ => .inl ?_⟩
    exact h.limit
  | reset =>
    unfold JobRetries.step JobRetries.reset at hs
    dsimp only at hs
    split_ifs at hs with hterminal
    cases hs
    have hrow : s.job.reset s.now = { s.job with
        state := .pending, priority := 200, attempt := 0, resourceFailures := 0,
        availableAt := s.now, failureCode := none } := if_pos hterminal
    rw [hrow]
    refine ⟨h.restart (fun b hb => ⟨b, hb, rfl, rfl, rfl⟩) rfl rfl rfl rfl, fun _ _ _ => .inl ?_⟩
    exact h.limit

theorem State.Sound.disciplined (h : s.Sound) (hp : s.Pendable) : s.Disciplined where
  executions := h.executions
  extra hlt := by
    obtain ⟨b, hb, hepoch, hexecuted, hattempt⟩ := h.extra hlt
    obtain ⟨-, hmax, hprior⟩ := h.claimed b hb
    refine ⟨b, hb, hepoch, hexecuted, hattempt, ?_⟩
    rcases hexecuted.2.le with hin | ⟨hone, -⟩
    · omega
    · exact hprior.symm.trans hone
  claimable hpending now hdue := .inl ⟨hpending, hdue, hp hpending⟩

end sound

/-! ## Every run -/

theorem disciplined_of_reachable {priority now maxAttempt : Nat} (hmax : 0 < maxAttempt)
    {s : State} (h : Reachable (restrict step CancelsInTime) (fun _ => True)
      (.init priority now maxAttempt) s) :
    s.Disciplined := by
  have hsound : s.Sound ∧ s.Pendable :=
    h.invariant (fun s => s.Sound ∧ s.Pendable)
      ⟨sound_init priority now hmax, fun _ => .inl hmax⟩ fun _ _ _ _ hi hs _ => by
        obtain ⟨hcondition, hstep⟩ := restrict_eq_some.mp hs
        obtain ⟨hsound, hpendable⟩ := hi.1.step hstep
        exact ⟨hsound, hpendable hcondition hi.2⟩
  exact hsound.1.disciplined hsound.2

section sample

/-- Workers claim the job and stop without a word, with the given tokens. -/
def crashed (tokens : List Uuid) : List Action :=
  tokens.flatMap fun token => [.claim ⟨9, token⟩, .tick leaseSeconds]

/-- A resource failure, an attempt that waits, and then one execution more than the limit. -/
def resourceRetried : List Action :=
  [.claim ⟨9, 1⟩, .finish 1 (.resource "processor_resource_limit") false, .tick 1,
    .claim ⟨9, 2⟩, .finish 2 .dependency false, .tick 1] ++ crashed [3, 4, 5, 6, 7]

/-- The attempt after the limit finds its worker stopping. -/
def cancelledLate : List Action :=
  crashed [1, 2, 3, 4, 5] ++ [.claim ⟨9, 6⟩, .cancel 6]

theorem disciplined_resourceRetried :
    ∃ s, Reachable (restrict step CancelsInTime) (fun _ => True) (.init 100 0 5) s ∧
      s.Disciplined ∧ s.count Attempt.executed = 6 := by
  have hrun : (run (restrict step CancelsInTime) (fun _ => True) (.init 100 0 5)
      resourceRetried).isSome := by
    decide +kernel
  obtain ⟨s, hs⟩ := Option.isSome_iff_exists.mp hrun
  have hreach := Reachable.of_run (.init trivial) hs
  have hcount : ∀ u ∈ run (restrict step CancelsInTime) (fun _ => True) (.init 100 0 5)
      resourceRetried, u.count Attempt.executed = 6 := by
    decide +kernel
  exact ⟨s, hreach, disciplined_of_reachable (by decide) hreach, hcount s hs⟩

/-- The cancellation leaves the attempt counter at the limit without a resource failure. -/
theorem not_disciplined_cancelledLate :
    ¬ ∀ s, Reachable step (fun _ => True) (.init 100 0 5) s → s.Disciplined := by
  intro hdisciplined
  have hrun : (run step (fun _ => True) (.init 100 0 5) cancelledLate).isSome := by
    decide +kernel
  obtain ⟨s, hs⟩ := Option.isSome_iff_exists.mp hrun
  have hstuck : ∀ u ∈ run step (fun _ => True) (.init 100 0 5) cancelledLate,
      u.job.state = .pending ∧ ¬ u.job.claimable u.job.availableAt := by
    decide +kernel
  obtain ⟨hpending, hnot⟩ := hstuck s hs
  have hs := hdisciplined s (Reachable.of_run (.init trivial) hs)
  exact hnot (hs.claimable hpending s.job.availableAt (Nat.le_refl _))

end sample

end FaultLane.JobRetries
