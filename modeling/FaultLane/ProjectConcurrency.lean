import FaultLane.WorkerQueueSteps
import Mathlib.Algebra.Order.Group.Nat

set_option autoImplicit false

/-!
# The leases of a project

How many jobs of a project carry an unexpired lease. Time and every step but a claim and a
heartbeat keep the number or lower it; these two keep it within the limit when the number is
below the limit as they write.
-/
namespace FaultLane.WorkerQueue
open KeyedTable JobQueue TransitionSystem

def State.WithinLimit (limit : Nat) (s : State) : Prop :=
  ∀ projectId, activeJobs s.jobs projectId s.now ≤ limit

def State.freePlace (limit : Nat) (s : State) (projectId : Uuid) : Prop :=
  activeJobs s.jobs projectId s.now < limit

instance (limit : Nat) (s : State) (projectId : Uuid) : Decidable (s.freePlace limit projectId) :=
  inferInstanceAs (Decidable (_ < _))

/-- A lease is written while the project has a free place, or where the job has a place or the
lease has expired by then. -/
def TakesFreePlace (limit : Nat) (s : State) : Action → Prop
  | .takeJob token locked =>
    ∀ c ∈ s.claims.find token, ∀ projectId ∈ c.phase.project,
      ∀ r ∈ s.candidate c projectId locked,
        c.startedAt + leaseSeconds ≤ s.now ∨ s.freePlace limit r.projectId
  | .heartbeat token startedAt =>
    ∀ w ∈ s.claimed.find token, ∀ r ∈ s.jobs.find w.jobId,
      startedAt + leaseSeconds ≤ s.now ∨ r.job.leaseActive s.now ∨ s.freePlace limit r.projectId
  | _ => True

instance (limit : Nat) (s : State) : DecidablePred (TakesFreePlace limit s) := by
  intro a
  unfold TakesFreePlace
  split <;> infer_instance

/-! ## Counting leases -/

section
variable {s s' : State} {limit : Nat} {a : Action}

theorem active_le_one (r : JobRow) (projectId : Uuid) (now : Nat) : r.active projectId now ≤ 1 := by
  unfold JobRow.active
  split_ifs <;> omega

theorem active_of_not (r : JobRow) {projectId : Uuid} {now : Nat} (h : ¬ r.job.leaseActive now) :
    r.active projectId now = 0 :=
  if_neg fun hactive => h hactive.2

theorem active_of_ne (r : JobRow) {projectId : Uuid} {now : Nat} (h : r.projectId ≠ projectId) :
    r.active projectId now = 0 :=
  if_neg fun hactive => h hactive.1

theorem active_mono {r r' : JobRow} {projectId now now' : Nat} (hp : r'.projectId = r.projectId)
    (h : r'.job.leaseActive now' → r.job.leaseActive now) :
    r'.active projectId now' ≤ r.active projectId now := by
  unfold JobRow.active
  rw [hp]
  split_ifs with hnew hold
  · exact le_rfl
  · exact absurd ⟨hnew.1, h hnew.2⟩ hold
  · exact Nat.zero_le 1
  · exact le_rfl

theorem leaseActive_later {j : Job} {now now' : Nat} (hle : now ≤ now') (h : j.leaseActive now') :
    j.leaseActive now := by
  obtain ⟨lease, hlease, hlt⟩ := h
  exact ⟨lease, hlease, lt_of_le_of_lt hle hlt⟩

/-- Leases only expire as time passes. -/
theorem activeJobs_later (t : Table JobRow.id) (projectId : Uuid) {now now' : Nat}
    (hle : now ≤ now') : activeJobs t projectId now' ≤ activeJobs t projectId now :=
  List.sum_le_sum fun _ _ => active_mono rfl (leaseActive_later hle)

theorem activeJobs_setJob {r : JobRow} (hr : r ∈ s.jobs) (j : Job) (projectId now : Nat) :
    activeJobs (s.setJob r.id j).jobs projectId now + r.active projectId now =
      activeJobs s.jobs projectId now + JobRow.active projectId now { r with job := j } :=
  Table.total_modify (g := fun r => { r with job := j }) (fun _ => rfl)
    (Table.find_eq_some.mpr ⟨hr, rfl⟩) _

/-- A lease that is written to a job of a project with a free place, or that had one. -/
theorem withinLimit_setJob (h : s.WithinLimit limit) {r : JobRow} (hr : r ∈ s.jobs) {j : Job}
    (hj : j.leaseActive s.now → r.job.leaseActive s.now ∨ s.freePlace limit r.projectId) :
    (s.setJob r.id j).WithinLimit limit := by
  intro projectId
  change activeJobs (s.setJob r.id j).jobs projectId s.now ≤ limit
  have hcount := activeJobs_setJob hr j projectId s.now
  have hbound : activeJobs s.jobs projectId s.now ≤ limit := h projectId
  have hone : JobRow.active projectId s.now { r with job := j } ≤ 1 := active_le_one _ _ _
  by_cases hp : r.projectId = projectId
  · by_cases hnew : j.leaseActive s.now
    · rcases hj hnew with hold | hfree
      · have hrow : r.active projectId s.now = 1 := if_pos ⟨hp, hold⟩
        omega
      · have hfree : activeJobs s.jobs projectId s.now < limit := hp ▸ hfree
        omega
    · have hzero : JobRow.active projectId s.now { r with job := j } = 0 := active_of_not _ hnew
      omega
  · have hzero : JobRow.active projectId s.now { r with job := j } = 0 := active_of_ne _ hp
    omega

theorem withinLimit_congr (h : s.WithinLimit limit) (hjobs : s'.jobs = s.jobs)
    (hnow : s.now ≤ s'.now) : s'.WithinLimit limit := by
  intro projectId
  rw [hjobs]
  exact (activeJobs_later s.jobs projectId hnow).trans (h projectId)

theorem leaseActive_of_state {j : Job} {owner token expiresAt now : Nat}
    (hs : j.state = .leased ⟨owner, token, expiresAt⟩) : j.leaseActive now ↔ now < expiresAt := by
  unfold Job.leaseActive
  rw [hs]
  exact ⟨fun ⟨_, hl, hlt⟩ => by cases hl; exact hlt, fun hlt => ⟨_, rfl, hlt⟩⟩

/-- What one step preserves. -/
theorem withinLimit_change (h : s.WithinLimit limit) (hfree : TakesFreePlace limit s a)
    (hs : Change s a s') : s'.WithinLimit limit := by
  cases hs with
  | quiet now jobs claimed transactions claims => exact withinLimit_congr h jobs now
  | @inserted _ r new free =>
    intro projectId
    have hzero : r.active projectId s.now = 0 := by
      refine active_of_not r fun hactive => ?_
      obtain ⟨lease, hlease, -⟩ := hactive
      exact nomatch free ▸ hlease
    have hcount : activeJobs (s.jobs.insert r) projectId s.now =
        r.active projectId s.now + activeJobs s.jobs projectId s.now :=
      Table.total_insert new _
    change activeJobs (s.jobs.insert r) projectId s.now ≤ limit
    rw [hcount, hzero, Nat.zero_add]
    exact h projectId
  | @taken c projectId locked r j claim phase candidate job =>
    have hplace := hfree c (Table.find_eq_some.mpr ⟨claim, rfl⟩) projectId (by rw [phase]; rfl) r
      candidate
    refine withinLimit_congr (withinLimit_setJob h (candidate_eq_some candidate).1 (j := j)
      fun hactive => ?_) rfl le_rfl
    have hlt := (leaseActive_of_state (Job.claim_eq_some job).2).mp hactive
    exact .inr (hplace.resolve_left (Nat.not_le_of_lt hlt))
  | @renewed startedAt w r j worker row id started unlocked job =>
    have hplace := hfree w (Table.find_eq_some.mpr ⟨worker, rfl⟩) r
      (Table.find_eq_some.mpr ⟨row, id⟩)
    refine withinLimit_setJob h row fun hactive => ?_
    obtain ⟨-, hj⟩ := Option.ite_none_right_eq_some.mp job
    cases hj
    have hlt := (leaseActive_of_state rfl).mp hactive
    exact hplace.resolve_left (Nat.not_le_of_lt hlt)
  | @loosened _ r j row unlocked job =>
    refine withinLimit_setJob h row fun ⟨lease, hlease, hlt⟩ => ?_
    exact .inl ⟨lease, job lease hlease, hlt⟩
  | opened | closed => exact withinLimit_congr h rfl le_rfl
  | @committed _ jobId j targets free =>
    intro projectId
    have hrow : ∀ r : JobRow,
        JobRow.active projectId s.now { r with job := j } ≤ r.active projectId s.now := by
      refine fun r => active_mono rfl fun ⟨lease, hlease, _⟩ => ?_
      exact nomatch free ▸ hlease
    have hle : activeJobs (s.setJob jobId j).jobs projectId s.now ≤ activeJobs s.jobs projectId s.now :=
      Table.total_modify_le (g := fun r => { r with job := j }) s.jobs jobId (fun _ => rfl) hrow
    exact hle.trans (h projectId)

end

section sample

def twoJobs : Targets where
  events := .empty
  uploads := .empty
  caches := .empty
  raw _ := ⟨⟨1, 10, 10, 30, 0, none, false⟩, .empty, .empty, .empty, .empty, ⟨0, 0, true⟩, .empty⟩

/-- The jobs run one after the other. -/
def oneByOne : List Action :=
  [.insertJob 1 3 (.processCrash 5) 100, .insertJob 2 3 (.indexArtifact 6) 100,
    .beginClaim ⟨10, 100⟩ 0, .lockProject 100 [], .takeJob 100 [], .tick 60, .heartbeat 100 60,
    .releaseJob 100 60 1 false true "dependency_pending",
    .beginClaim ⟨20, 200⟩ 60, .lockProject 200 [], .takeJob 200 []]

/-- Two claims have their snapshots before either of them locks the project. -/
def overlappingClaims : List Action :=
  [.insertJob 1 3 (.processCrash 5) 100, .insertJob 2 3 (.indexArtifact 6) 100,
    .beginClaim ⟨10, 100⟩ 0, .beginClaim ⟨20, 200⟩ 0, .lockProject 100 [], .takeJob 100 [],
    .lockProject 200 [], .takeJob 200 []]

/-- A lease expires, a job that comes first is claimed, and a heartbeat renews the lease. -/
def renewedLease : List Action :=
  [.insertJob 1 3 (.processCrash 5) 100, .beginClaim ⟨10, 100⟩ 0, .lockProject 100 [],
    .takeJob 100 [], .tick 300, .insertJob 2 3 (.generateSymcache 6) 50,
    .beginClaim ⟨20, 200⟩ 300, .lockProject 200 [], .takeJob 200 [], .heartbeat 100 300]

theorem exceeds_one :
    ∀ actions ∈ [overlappingClaims, renewedLease],
      ∃ s, Reachable (step 1) (fun _ => True) (.init twoJobs) s ∧
        run (step 1) (fun _ => True) (.init twoJobs) actions = some s ∧ ¬ s.WithinLimit 1 := by
  have hruns : ∀ actions ∈ [overlappingClaims, renewedLease],
      (run (step 1) (fun _ => True) (.init twoJobs) actions).isSome ∧
        ∀ u ∈ run (step 1) (fun _ => True) (.init twoJobs) actions,
          activeJobs u.jobs 3 u.now = 2 := by
    decide
  intro actions hactions
  obtain ⟨hrun, hactive⟩ := hruns actions hactions
  obtain ⟨s, hs⟩ := Option.isSome_iff_exists.mp hrun
  refine ⟨s, Reachable.of_run (.init trivial) hs, hs, fun hlimit => ?_⟩
  have htwo := hactive s hs
  have hone := hlimit 3
  omega

end sample
end FaultLane.WorkerQueue
