import Mathlib.Data.Option.Basic

set_option autoImplicit false

/-!
# Rows of the job queue

What each statement on `jobs` does to the row that it finds, with the guard that must hold
of it. The lease columns are filled while a job is leased and at no other time.
-/
namespace FaultLane.JobQueue

abbrev Uuid := Nat

def leaseSeconds : Nat := 300

structure Lease where
  owner : Uuid
  token : Uuid
  expiresAt : Nat
  deriving DecidableEq, Repr

inductive JobState where
  | pending
  | leased (lease : Lease)
  | completed
  | failed
  | dead
  deriving DecidableEq, Repr

def JobState.lease : JobState → Option Lease
  | .leased lease => some lease
  | _ => none

def JobState.terminal : JobState → Bool
  | .completed | .failed | .dead => true
  | .pending | .leased _ => false

inductive JobKind where
  | processCrash
  | indexArtifact
  | generateSymcache
  | deleteRaw
  deriving DecidableEq, Repr

structure Job where
  state : JobState
  priority : Nat
  attempt : Nat
  maxAttempt : Nat
  resourceFailures : Nat
  availableAt : Nat
  failureCode : Option String
  deriving DecidableEq, Repr

/-- A row as the inserts make it, with the table's defaults. -/
def Job.new (priority now : Nat) : Job := ⟨.pending, priority, 0, 5, 0, now, none⟩

/-- The worker's identity and the token of its claim. -/
structure Holder where
  owner : Uuid
  token : Uuid
  deriving DecidableEq, Repr

def Lease.heldBy (lease : Lease) (h : Holder) : Prop :=
  lease.owner = h.owner ∧ lease.token = h.token

instance (lease : Lease) (h : Holder) : Decidable (lease.heldBy h) :=
  inferInstanceAs (Decidable (_ ∧ _))

/-- `state = 'leased' AND lease_owner = … AND lease_token = …`. -/
def Job.holds (j : Job) (h : Holder) : Prop := ∃ lease, j.state = .leased lease ∧ lease.heldBy h

theorem Job.holds_iff {j : Job} {h : Holder} :
    j.holds h ↔ ∃ lease ∈ j.state.lease, lease.heldBy h := by
  unfold Job.holds
  cases hs : j.state <;> simp [JobState.lease]

instance (j : Job) (h : Holder) : Decidable (j.holds h) :=
  decidable_of_iff (∃ lease ∈ j.state.lease, lease.heldBy h) Job.holds_iff.symm

/-- The lease has not expired. -/
def Job.leaseActive (j : Job) (now : Nat) : Prop := ∃ lease ∈ j.state.lease, now < lease.expiresAt

instance (j : Job) (now : Nat) : Decidable (j.leaseActive now) :=
  inferInstanceAs (Decidable (∃ lease ∈ j.state.lease, _))

def Job.retryable (j : Job) : Prop :=
  j.attempt < j.maxAttempt ∨ (j.attempt = j.maxAttempt ∧ j.resourceFailures = 1)

instance (j : Job) : Decidable j.retryable := inferInstanceAs (Decidable (_ ∨ _))

/-- Pending and due, or leased and expired. -/
def Job.claimable (j : Job) (now : Nat) : Prop :=
  (j.state = .pending ∧ j.availableAt ≤ now ∧ j.retryable) ∨
    (j.state.lease.isSome ∧ ¬ j.leaseActive now)

instance (j : Job) (now : Nat) : Decidable (j.claimable now) :=
  inferInstanceAs (Decidable (_ ∨ _))

section statements
variable (j : Job) (h : Holder) (now : Nat)

def Job.renewed : Job := { j with state := .leased ⟨h.owner, h.token, now + leaseSeconds⟩ }

/-- `claim_job_with_project_limit`. -/
def Job.claim : Option Job :=
  if j.claimable now then
    some { j with
      state := .leased ⟨h.owner, h.token, now + leaseSeconds⟩, attempt := j.attempt + 1 }
  else none

/-- The update of `start_heartbeat`. -/
def Job.heartbeat : Option Job := if j.holds h then some (j.renewed h now) else none

/-- `lock_lease`, which also asks that the lease has not expired. -/
def Job.lockLease : Option Job :=
  if j.holds h ∧ j.leaseActive now then some (j.renewed h now) else none

def Job.completeJob (failureCode : Option String) : Option Job :=
  if j.holds h then some { j with state := .completed, failureCode := failureCode } else none

def Job.requeueForNewGeneration : Option Job :=
  if j.holds h then
    some { j with
      state := .pending, priority := 200, attempt := 0, resourceFailures := 0,
      availableAt := now, failureCode := none }
  else none

/-- `terminal_job`, into `failed` for a quarantine and `dead` otherwise. -/
def Job.terminalJob (quarantine resourceFailure : Bool) (code : String) : Option Job :=
  if j.holds h then
    some { j with
      state := if quarantine then .failed else .dead
      failureCode := some code
      resourceFailures := j.resourceFailures + if resourceFailure then 1 else 0 }
  else none

/-- The update of `release_job`: a retry, a wait for a dependency or a cancellation. -/
def Job.release (seconds : Nat) (resource dependency : Bool) (code : String) : Option Job :=
  if j.holds h then
    some { j with
      state := .pending, availableAt := now + seconds, failureCode := some code
      resourceFailures := j.resourceFailures + (if resource then 1 else 0)
      attempt := j.attempt - if dependency then 1 else 0 }
  else none

/-- What `schedule_reprocessing_events` makes of a job that is not leased. -/
def Job.reactivated : Job :=
  if j.state.lease.isSome then j
  else
    { j with
      state := .pending
      priority := if j.state.terminal then 200 else j.priority
      attempt := 0
      resourceFailures := 0
      availableAt := now
      failureCode := none }

/-- What `reconcile_reprocessing_event_jobs` makes of a job that is done. -/
def Job.reset : Job :=
  if j.state.terminal then
    { j with
      state := .pending, priority := 200, attempt := 0, resourceFailures := 0,
      availableAt := now, failureCode := none }
  else j

end statements

/-! ## The lease before and after each statement -/

section
variable {j j' : Job} {h k : Holder} {now : Nat}

/-- One holder at a time. -/
theorem Job.holds_unique (hk : j.holds k) (hh : j.holds h) : k = h := by
  obtain ⟨lease, hs, ho, ht⟩ := hk
  obtain ⟨lease', hs', ho', ht'⟩ := hh
  rw [hs] at hs'
  cases hs'
  cases k
  cases h
  cases ho
  cases ht
  cases ho'
  cases ht'
  rfl

theorem Job.holds_of_state {expiresAt : Nat} (hs : j.state = .leased ⟨h.owner, h.token, expiresAt⟩) :
    j.holds k ↔ k = h := by
  have hh : j.holds h := ⟨_, hs, rfl, rfl⟩
  exact ⟨fun hk => Job.holds_unique hk hh, fun hk => hk ▸ hh⟩

theorem Job.not_holds_of_lease (hs : j.state.lease = none) : ¬ j.holds k := by
  rintro ⟨lease, hl, -⟩
  rw [hl] at hs
  cases hs

theorem Job.holds.lease (hh : j.holds h) : j.state.lease.isSome := by
  obtain ⟨lease, hs, -⟩ := hh
  rw [hs]
  rfl

/-- What a statement leaves: the lease of its holder, or none. -/
structure Job.Renews (j : Job) (h : Holder) (j' : Job) : Prop where
  held : j.holds h
  holds : ∀ k, j'.holds k ↔ k = h

structure Job.Ends (j : Job) (h : Holder) (j' : Job) : Prop where
  held : j.holds h
  lease : j'.state.lease = none

theorem Job.claim_eq_some (hc : j.claim h now = some j') :
    j.claimable now ∧ j'.state = .leased ⟨h.owner, h.token, now + leaseSeconds⟩ := by
  unfold Job.claim at hc
  split at hc
  · next hclaim =>
    cases hc
    exact ⟨hclaim, rfl⟩
  · cases hc

theorem Job.heartbeat_renews (hb : j.heartbeat h now = some j') : j.Renews h j' := by
  unfold Job.heartbeat at hb
  split at hb
  · next hh =>
    cases hb
    exact ⟨hh, fun k => Job.holds_of_state rfl⟩
  · cases hb

theorem Job.lockLease_renews (hl : j.lockLease h now = some j') : j.Renews h j' := by
  unfold Job.lockLease at hl
  split at hl
  · next hh =>
    cases hl
    exact ⟨hh.1, fun k => Job.holds_of_state rfl⟩
  · cases hl

theorem Job.completeJob_ends {failureCode : Option String}
    (hc : j.completeJob h failureCode = some j') : j.Ends h j' ∧ j'.state = .completed := by
  unfold Job.completeJob at hc
  split at hc
  · next hh =>
    cases hc
    exact ⟨⟨hh, rfl⟩, rfl⟩
  · cases hc

theorem Job.requeueForNewGeneration_ends (hr : j.requeueForNewGeneration h now = some j') :
    j.Ends h j' ∧ j'.state = .pending := by
  unfold Job.requeueForNewGeneration at hr
  split at hr
  · next hh =>
    cases hr
    exact ⟨⟨hh, rfl⟩, rfl⟩
  · cases hr

theorem Job.terminalJob_ends {quarantine resourceFailure : Bool} {code : String}
    (ht : j.terminalJob h quarantine resourceFailure code = some j') :
    j.Ends h j' ∧ j'.state.terminal := by
  unfold Job.terminalJob at ht
  split at ht
  · next hh =>
    cases ht
    cases quarantine <;> exact ⟨⟨hh, rfl⟩, rfl⟩
  · cases ht

theorem Job.release_ends {seconds : Nat} {resource dependency : Bool} {code : String}
    (hr : j.release h now seconds resource dependency code = some j') :
    j.Ends h j' ∧ j'.state = .pending := by
  unfold Job.release at hr
  split at hr
  · next hh =>
    cases hr
    exact ⟨⟨hh, rfl⟩, rfl⟩
  · cases hr

theorem Job.reactivated_of_lease (hl : j.state.lease.isSome) : j.reactivated now = j := if_pos hl

theorem Job.reactivated_state (hl : ¬ j.state.lease.isSome) :
    (j.reactivated now).state = .pending := by
  rw [Job.reactivated, if_neg hl]

theorem Job.reset_state (ht : j.state.terminal) : (j.reset now).state = .pending := by
  rw [Job.reset, if_pos ht]

end
end FaultLane.JobQueue
