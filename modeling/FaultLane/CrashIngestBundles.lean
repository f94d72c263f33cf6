import FaultLane.BundleLifecycle
import FaultLane.CrashIngest

set_option autoImplicit false

/-!
# The bundles of the ingest system

Each state of the system shows one bundle at each object key, and each of its steps moves
every bundle as the life cycle allows.
-/
namespace FaultLane.CrashIngest
open KeyedTable BundleLifecycle

def Phase.stage : Phase → Stage
  | .registering => .opening
  | .storing => .pending
  | .inspecting | .selecting _ | .inserting _ | .committing _ | .inDoubt _ => .held
  | .conflicting _ | .cleaning .deleting _ | .cleaning .recording _ => .closing
  | .cleaning .clearing _ => .erased
  | .answered _ | .crashed => .done

theorem Phase.settled_stage (p : Phase) : p.stage.settled = !p.mayCommit := by
  rcases p with _ | _ | _ | _ | _ | _ | _ | _ | ⟨_ | _ | _, _⟩ | _ | _ <;> rfl

theorem Phase.stage_ne_unused (p : Phase) : p.stage ≠ .unused := by
  rcases p with _ | _ | _ | _ | _ | _ | _ | _ | ⟨_ | _ | _, _⟩ | _ | _ <;> nofun

def rowStatus : Option OrphanRow → Option Submission → Row
  | none, _ => .absent
  | some r, some t => if r.attempts = 0 ∧ t.startedAt ≤ r.createdAt then .young else .retried
  | some _, none => .retried

theorem rowStatus_eq_absent {r : Option OrphanRow} {t : Option Submission} :
    rowStatus r t = .absent ↔ r = none := by
  cases r with
  | none => simp [rowStatus]
  | some r =>
    cases t with
    | none => simp [rowStatus]
    | some t =>
      simp only [rowStatus]
      split_ifs <;> simp

theorem rowStatus_eq_young {r : Option OrphanRow} {t : Option Submission} :
    rowStatus r t = .young ↔
      ∃ r' t', r = some r' ∧ t = some t' ∧ r'.attempts = 0 ∧ t'.startedAt ≤ r'.createdAt := by
  cases r with
  | none => simp [rowStatus]
  | some r =>
    cases t with
    | none => simp [rowStatus]
    | some t =>
      simp only [rowStatus]
      split_ifs with h <;> simp [h]

theorem rowStatus_phase (r : Option OrphanRow) (t : Submission) (p : Phase) :
    rowStatus r (some { t with phase := p }) = rowStatus r (some t) := by
  cases r <;> rfl

theorem rowStatus_of_attempts {r : OrphanRow} (h : 0 < r.attempts) (t : Option Submission) :
    rowStatus (some r) t = .retried := by
  cases t with
  | none => rfl
  | some t => exact if_neg fun hr => h.ne' hr.1

namespace State
variable (s : State) (k : ObjectKey)

def stage : Stage := ((s.submissions.find k).map fun t => t.phase.stage).getD .unused

def bundle : Bundle where
  stage := s.stage k
  row := rowStatus (s.orphans.find k) (s.submissions.find k)
  stored := decide (k ∈ s.objects)
  referenced := s.events.any fun e => e.objectKey = k

end State

section
variable {s : State} {k k' : ObjectKey}

theorem stored_bundle : (s.bundle k).stored = true ↔ k ∈ s.objects := decide_eq_true_iff

theorem referenced_bundle : (s.bundle k).referenced = true ↔ ∃ e ∈ s.events, e.objectKey = k := by
  simp [State.bundle]

theorem row_bundle_eq_absent : (s.bundle k).row = .absent ↔ s.orphans.find k = none :=
  rowStatus_eq_absent

theorem stage_bundle {t : Submission} (h : s.submissions.find k = some t) :
    (s.bundle k).stage = t.phase.stage := by
  simp [State.bundle, State.stage, h]

theorem stage_bundle_eq_unused : (s.bundle k).stage = .unused ↔ s.submissions.find k = none := by
  cases h : s.submissions.find k with
  | none => simp [State.bundle, State.stage, h]
  | some t => simp [State.bundle, State.stage, h, Phase.stage_ne_unused]

theorem bundle_eq {b : Bundle} (hs : s.stage k = b.stage)
    (hr : rowStatus (s.orphans.find k) (s.submissions.find k) = b.row)
    (ho : k ∈ s.objects ↔ b.stored = true)
    (he : (s.events.any fun e => e.objectKey = k) = b.referenced) : s.bundle k = b := by
  unfold State.bundle
  rw [hs, hr, he, show decide (k ∈ s.objects) = b.stored by
    rw [Bool.eq_iff_iff, decide_eq_true_iff, ho]]

theorem bundle_congr {u : State} (hs : u.submissions.find k = s.submissions.find k)
    (ho : u.orphans.find k = s.orphans.find k) (hp : k ∈ u.objects ↔ k ∈ s.objects)
    (he : (u.events.any fun e => e.objectKey = k) = s.events.any fun e => e.objectKey = k) :
    u.bundle k = s.bundle k :=
  bundle_eq (by rw [State.stage, hs]; rfl) (by rw [hs, ho]; rfl) (hp.trans stored_bundle.symm) he

theorem bundle_advance_self {t : Submission} (h : s.submissions.find k = some t) (p : Phase) :
    (s.advance k p).bundle k = { s.bundle k with stage := p.stage } := by
  have hf : (s.advance k p).submissions.find k = some { t with phase := p } := by
    simp [State.advance, h]
  refine bundle_eq (by simp [State.stage, hf]) ?_ stored_bundle.symm rfl
  rw [hf, rowStatus_phase, ← h]
  rfl

theorem bundle_advance_of_ne (h : k' ≠ k) (p : Phase) :
    (s.advance k p).bundle k' = s.bundle k' :=
  bundle_congr (by simp [State.advance, h]) rfl Iff.rfl rfl

theorem bundle_putObject_self : (s.putObject k).bundle k = { s.bundle k with stored := true } :=
  bundle_eq rfl rfl (by simp [State.putObject]) rfl

theorem bundle_putObject_of_ne (h : k' ≠ k) : (s.putObject k).bundle k' = s.bundle k' :=
  bundle_congr rfl rfl (by simp [State.putObject, h]) rfl

theorem bundle_deleteObject_self :
    (s.deleteObject k).bundle k = { s.bundle k with stored := false } :=
  bundle_eq rfl rfl (by simp [State.deleteObject]) rfl

theorem bundle_deleteObject_of_ne (h : k' ≠ k) : (s.deleteObject k).bundle k' = s.bundle k' :=
  bundle_congr rfl rfl (by simp [State.deleteObject, h]) rfl

theorem bundle_insertPending_self {t : Submission} (h : s.submissions.find k = some t)
    (ht : t.startedAt ≤ s.now) (hr : s.orphans.find k = none) :
    (s.insertPending k).bundle k = { s.bundle k with row := .young } := by
  have hf : (s.insertPending k).orphans.find k = some ⟨k, 0, s.now, s.now⟩ :=
    Table.find_insert_self (a := (⟨k, 0, s.now, s.now⟩ : OrphanRow)) hr
  refine bundle_eq rfl ?_ stored_bundle.symm rfl
  rw [hf, show (s.insertPending k).submissions.find k = some t from h]
  exact if_pos ⟨rfl, ht⟩

theorem bundle_insertPending_of_ne (h : k' ≠ k) : (s.insertPending k).bundle k' = s.bundle k' :=
  bundle_congr rfl (Table.find_insert_of_ne h) Iff.rfl rfl

theorem bundle_deleteOrphan_self :
    (s.deleteOrphan k).bundle k = { s.bundle k with row := .absent } :=
  bundle_eq rfl (rowStatus_eq_absent.mpr (Table.find_delete_self _ _)) stored_bundle.symm rfl

theorem bundle_deleteOrphan_of_ne (h : k' ≠ k) : (s.deleteOrphan k).bundle k' = s.bundle k' :=
  bundle_congr rfl (Table.find_delete_of_ne _ h) Iff.rfl rfl

theorem bundle_retryOrphan_self :
    (s.retryOrphan k).bundle k = { s.bundle k with row := (s.bundle k).row.retry } := by
  refine bundle_eq rfl ?_ stored_bundle.symm rfl
  simp only [State.retryOrphan, Table.find_modify_self]
  cases h : s.orphans.find k with
  | none =>
    rw [show (s.bundle k).row = .absent from row_bundle_eq_absent.mpr h]
    rfl
  | some r =>
    have hne : (s.bundle k).row ≠ .absent := by simp [row_bundle_eq_absent, h]
    rw [Option.map_some, rowStatus_of_attempts (Nat.succ_pos _), Row.retry_of_ne_absent hne]

theorem bundle_retryOrphan_of_ne (h : k' ≠ k) : (s.retryOrphan k).bundle k' = s.bundle k' :=
  bundle_congr rfl (by simp [State.retryOrphan, h]) Iff.rfl rfl

theorem bundle_recordOrphan_self :
    (s.recordOrphan k).bundle k = { s.bundle k with row := .retried } := by
  unfold State.recordOrphan
  split
  · next r hr =>
    have hne : (s.bundle k).row ≠ .absent := by simp [row_bundle_eq_absent, hr]
    rw [bundle_retryOrphan_self, Row.retry_of_ne_absent hne]
  · next hr =>
    have hf : (s.orphans.insert ⟨k, 1, s.now, s.now⟩).find k = some ⟨k, 1, s.now, s.now⟩ :=
      Table.find_insert_self (a := (⟨k, 1, s.now, s.now⟩ : OrphanRow)) hr
    refine bundle_eq rfl ?_ stored_bundle.symm rfl
    rw [hf, rowStatus_of_attempts Nat.one_pos]

theorem bundle_recordOrphan_of_ne (h : k' ≠ k) : (s.recordOrphan k).bundle k' = s.bundle k' := by
  unfold State.recordOrphan
  split
  · exact bundle_retryOrphan_of_ne h
  · exact bundle_congr rfl (Table.find_insert_of_ne h) Iff.rfl rfl

theorem bundle_commitEvent_self (guid : Option RustText.Text) :
    (s.commitEvent k guid).bundle k = { s.bundle k with row := .absent, referenced := true } :=
  bundle_eq rfl (rowStatus_eq_absent.mpr (Table.find_delete_self _ _)) stored_bundle.symm
    (by simp [State.commitEvent])

theorem bundle_commitEvent_of_ne (h : k' ≠ k) (guid : Option RustText.Text) :
    (s.commitEvent k guid).bundle k' = s.bundle k' :=
  bundle_congr rfl (Table.find_delete_of_ne _ h) Iff.rfl (by simp [State.commitEvent, h.symm])

end

/-! ## One step refines the life cycle -/

/-- A step at one key: the bundle there moves, the others stay. -/
def MovesAt (k : ObjectKey) (s s' : State) : Prop :=
  Move (s.bundle k) (s'.bundle k) ∧ ∀ k' ≠ k, s'.bundle k' = s.bundle k'

theorem MovesAt.move {k : ObjectKey} {s s' : State} (h : MovesAt k s s') (k' : ObjectKey) :
    Move (s.bundle k') (s'.bundle k') := by
  by_cases hk : k' = k
  · rw [hk]
    exact h.1
  · rw [h.2 k' hk]
    exact .stay

section
variable {s s' u : State} {k : ObjectKey} {t : Submission}

theorem movesAt_advance (ht : s.submissions.find k = some t) {p : Phase} {b : Bundle}
    (hu : u.submissions = s.submissions) (hframe : ∀ k' ≠ k, u.bundle k' = s.bundle k')
    (hb : u.bundle k = b) (hmove : Move (s.bundle k) { b with stage := p.stage }) :
    MovesAt k s (u.advance k p) := by
  constructor
  · rw [bundle_advance_self (by rw [hu]; exact ht), hb]
    exact hmove
  · intro k' hk
    rw [bundle_advance_of_ne hk, hframe k' hk]

theorem movesAt_phase (ht : s.submissions.find k = some t) {p : Phase}
    (hmove : Move (s.bundle k) { s.bundle k with stage := p.stage }) :
    MovesAt k s (s.advance k p) :=
  movesAt_advance ht rfl (fun _ _ => rfl) rfl hmove

theorem movesAt_registerPendingObject (ht : s.submissions.find k = some t)
    (hp : t.phase = .registering) (hnow : t.startedAt ≤ s.now) (hr : s.orphans.find k = none)
    (reply : Reply) : MovesAt k s (registerPendingObject s k reply) := by
  have hs : (s.bundle k).stage = .opening := by rw [stage_bundle ht, hp]; rfl
  have hb := bundle_insertPending_self ht hnow hr
  rcases reply with _ | _ | _
  · exact movesAt_advance ht rfl (fun _ h => bundle_insertPending_of_ne h) hb (.register hs)
  · exact movesAt_phase ht (.registerFailed hs false)
  · exact movesAt_advance ht rfl (fun _ h => bundle_insertPending_of_ne h) hb
      (.registerFailed hs true)

theorem movesAt_storeRequest (ht : s.submissions.find k = some t) (hp : t.phase = .storing) :
    MovesAt k s (storeRequest s k) :=
  movesAt_advance ht rfl (fun _ h => bundle_putObject_of_ne h) bundle_putObject_self
    (.store (by rw [stage_bundle ht, hp]; rfl))

theorem movesAt_storeRequestFailed (ht : s.submissions.find k = some t) (hp : t.phase = .storing)
    (error : IngestError) (stored : Bool) : MovesAt k s (storeRequestFailed s k error stored) := by
  have hs : (s.bundle k).stage = .pending := by rw [stage_bundle ht, hp]; rfl
  cases stored with
  | false => exact movesAt_phase ht (.storeFailed hs false)
  | true =>
    exact movesAt_advance ht rfl (fun _ h => bundle_putObject_of_ne h) bundle_putObject_self
      (.storeFailed hs true)

/-- Between the upload and the commit a bundle stays held or is given up. -/
theorem movesAt_held (ht : s.submissions.find k = some t) (hp : t.phase.stage = .held)
    {p : Phase} (hp' : p.stage = .held ∨ p.stage = .closing) : MovesAt k s (s.advance k p) := by
  have hs : (s.bundle k).stage = .held := by rw [stage_bundle ht, hp]
  refine movesAt_phase ht ?_
  obtain h | h := hp'
  · rw [h, ← hs]
    exact .stay
  · rw [h]
    exact .close (.inl hs)

theorem movesAt_closing (ht : s.submissions.find k = some t)
    (hp : t.phase.stage = .closing) {p : Phase} (hp' : p.stage = .closing) :
    MovesAt k s (s.advance k p) := by
  refine movesAt_phase ht ?_
  rw [hp']
  exact .close (.inr (by rw [stage_bundle ht, hp]))

theorem movesAt_done (ht : s.submissions.find k = some t) {p : Phase} (hp : p.stage = .done) :
    MovesAt k s (s.advance k p) := by
  refine movesAt_phase ht ?_
  rw [hp]
  exact .abandon (by rw [stage_bundle ht]; exact t.phase.stage_ne_unused)

theorem movesAt_commitEvent (ht : s.submissions.find k = some t) (hp : t.phase.stage = .held)
    (guid : Option RustText.Text) {p : Phase} (hp' : p.stage = .done) :
    MovesAt k s ((s.commitEvent k guid).advance k p) := by
  refine movesAt_advance ht rfl (fun _ h => bundle_commitEvent_of_ne h guid)
    (bundle_commitEvent_self guid) ?_
  rw [hp']
  exact .commit (by rw [stage_bundle ht, hp])

theorem movesAt_cleanupObject (ht : s.submissions.find k = some t) {response : Response}
    (hp : t.phase = .cleaning .deleting response) (reply : Reply) :
    MovesAt k s (cleanupObject s k response reply) := by
  have hs : (s.bundle k).stage = .closing := by rw [stage_bundle ht, hp]; rfl
  have hclosing : (Phase.cleaning .recording response).stage = (s.bundle k).stage := hs.symm
  rcases reply with _ | _ | _
  · exact movesAt_advance ht rfl (fun _ h => bundle_deleteObject_of_ne h) bundle_deleteObject_self
      (.erase hs)
  · exact movesAt_closing ht (by rw [hp]; rfl) rfl
  · refine movesAt_advance ht rfl (fun _ h => bundle_deleteObject_of_ne h) bundle_deleteObject_self
      ?_
    rw [hclosing]
    exact .eraseFailed hs true

theorem movesAt_clearOrphan (ht : s.submissions.find k = some t) {response : Response}
    (hp : t.phase = .cleaning .clearing response) (applied : Bool) :
    MovesAt k s (clearOrphan s k response applied) := by
  have hs : (s.bundle k).stage = .erased := by rw [stage_bundle ht, hp]; rfl
  cases applied with
  | false => exact movesAt_phase ht (.clear hs false)
  | true =>
    exact movesAt_advance ht rfl (fun _ h => bundle_deleteOrphan_of_ne h) bundle_deleteOrphan_self
      (.clear hs true)

theorem recordOrphan_submissions : (s.recordOrphan k).submissions = s.submissions := by
  unfold State.recordOrphan
  split <;> rfl

theorem movesAt_recordOrphan (ht : s.submissions.find k = some t) {response : Response}
    (hp : t.phase = .cleaning .recording response) (applied : Bool) :
    MovesAt k s (recordOrphan s k response applied) := by
  have hs : (s.bundle k).stage = .closing := by rw [stage_bundle ht, hp]; rfl
  cases applied with
  | false => exact movesAt_phase ht (.record hs false)
  | true =>
    exact movesAt_advance ht recordOrphan_submissions (fun _ h => bundle_recordOrphan_of_ne h)
      bundle_recordOrphan_self (.record hs true)

/-- The statements of a submission move its own bundle only. -/
theorem submitCrash_moves (ht : s.submissions.find k = some t) (hnow : t.startedAt ≤ s.now)
    (hb : (s.bundle k).Accounted) {a : RequestStep} (h : submitCrash s t a = some s') :
    MovesAt k s s' := by
  obtain rfl : t.objectKey = k := (Table.find_eq_some.mp ht).2
  cases a with
  | registerPendingObject reply =>
    simp only [submitCrash, Option.ite_none_right_eq_some, Option.some.injEq] at h
    obtain ⟨hp, rfl⟩ := h
    have hr : (s.bundle t.objectKey).row = .absent := by
      simp only [Bundle.Accounted, stage_bundle ht, hp, Phase.stage] at hb
      exact hb.1
    exact movesAt_registerPendingObject ht hp hnow (row_bundle_eq_absent.mp hr) reply
  | storeRequest =>
    simp only [submitCrash, Option.ite_none_right_eq_some, Option.some.injEq] at h
    obtain ⟨hp, rfl⟩ := h
    exact movesAt_storeRequest ht hp
  | storeRequestFailed error stored =>
    simp only [submitCrash, Option.ite_none_right_eq_some, Option.some.injEq] at h
    obtain ⟨⟨hp, -⟩, rfl⟩ := h
    exact movesAt_storeRequestFailed ht hp error stored
  | inspectSpool manifest =>
    simp only [submitCrash, Option.ite_none_right_eq_some, Option.some.injEq] at h
    obtain ⟨hp, rfl⟩ := h
    refine movesAt_held ht (by rw [hp]; rfl) ?_
    cases manifest with
    | ok names => exact .inl rfl
    | error error => exact .inr rfl
  | selectExisting =>
    simp only [submitCrash] at h
    split at h <;> cases h
    next guid hp =>
    refine movesAt_held ht (by rw [hp]; rfl) ?_
    split
    · exact .inr rfl
    · exact .inl rfl
  | insertEvent =>
    simp only [submitCrash] at h
    split at h
    · next guid hp =>
      have hheld : t.phase.stage = .held := by rw [hp]; rfl
      unfold insertEvent at h
      split at h
      · cases h
        exact movesAt_held ht hheld (.inl rfl)
      · split_ifs at h <;> cases h
        · exact movesAt_held ht hheld (.inr rfl)
        · exact movesAt_held ht hheld (.inl rfl)
    · cases h
  | readExisting =>
    simp only [submitCrash] at h
    split at h <;> cases h
    next guid hp =>
    refine movesAt_closing ht (by rw [hp]; rfl) ?_
    split <;> rfl
  | persistFailed error =>
    simp only [submitCrash, Option.ite_none_right_eq_some, Option.some.injEq] at h
    obtain ⟨⟨hp, -⟩, rfl⟩ := h
    unfold Phase.persisting at hp
    split at hp
    case h_3 _ _ hc => exact movesAt_closing ht (by rw [hc]; rfl) rfl
    case h_5 => cases hp
    all_goals
      next hc => exact movesAt_held ht (by rw [hc]; rfl) (.inr rfl)
  | commit =>
    simp only [submitCrash] at h
    split at h <;> cases h
    next guid hp => exact movesAt_commitEvent ht (by rw [hp]; rfl) guid rfl
  | commitUncertain =>
    simp only [submitCrash] at h
    split at h <;> cases h
    next guid hp => exact movesAt_held ht (by rw [hp]; rfl) (.inl rfl)
  | settle applied =>
    simp only [submitCrash] at h
    split at h <;> cases h
    next guid hp =>
    cases applied with
    | false => exact movesAt_done ht rfl
    | true => exact movesAt_commitEvent ht (by rw [hp]; rfl) guid rfl
  | deleteObject reply =>
    simp only [submitCrash] at h
    split at h <;> cases h
    next response hp => exact movesAt_cleanupObject ht hp reply
  | clearOrphan applied =>
    simp only [submitCrash] at h
    split at h <;> cases h
    next response hp => exact movesAt_clearOrphan ht hp applied
  | recordOrphan applied =>
    simp only [submitCrash] at h
    split at h <;> cases h
    next response hp => exact movesAt_recordOrphan ht hp applied
  | crash =>
    simp only [submitCrash, Option.ite_none_right_eq_some, Option.some.injEq] at h
    obtain ⟨-, rfl⟩ := h
    exact movesAt_done ht rfl

end
end FaultLane.CrashIngest
