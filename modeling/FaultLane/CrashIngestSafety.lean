import FaultLane.CrashIngestBundles
import FaultLane.CrashIngestRegistry
import FaultLane.TransitionSystem

set_option autoImplicit false

/-!
# No bundle is lost and none leaks

The invariant of the ingest system over every interleaving in which a submission commits
within the reconcile age.
-/
namespace FaultLane.CrashIngest
open KeyedTable BundleLifecycle TransitionSystem RustText

structure Invariant (s : State) : Prop where
  accounted : ∀ k, (s.bundle k).Accounted
  started : ∀ t ∈ s.submissions, t.startedAt ≤ s.now
  listed : ∀ r ∈ s.reconcilers, ∀ k ∈ r.pending, (s.bundle k).Released
  cleared : ∀ r ∈ s.reconcilers, r.next = .clearing → ∀ k, r.pending.head? = some k →
    (s.bundle k).stored = false
  registry : Registry s

theorem Invariant.init : Invariant .init where
  accounted _ := ⟨rfl, rfl, rfl⟩
  started t h := absurd h (Table.not_mem_empty t)
  listed r h := absurd h (Table.not_mem_empty r)
  cleared r h := absurd h (Table.not_mem_empty r)
  registry :=
    { ids := fun t h => absurd h (Table.not_mem_empty t)
      event := nofun
      indexed := fun _ _ => Nat.zero_le 1
      free := fun t h => absurd h (Table.not_mem_empty t)
      holder := fun t h => absurd h (Table.not_mem_empty t)
      job := nofun
      jobEvent := nofun
      acknowledged := fun t h => absurd h (Table.not_mem_empty t) }

section
variable {s s' : State}

theorem mem_dueOrphans {k : ObjectKey} (h : k ∈ dueOrphans s) :
    ∃ r, s.orphans.find k = some r ∧ r.due s.now := by
  obtain ⟨r, hr, rfl⟩ := List.mem_map.mp h
  have hr := (List.perm_insertionSort _ _).mem_iff.mp (List.mem_of_mem_take hr)
  obtain ⟨hm, hd⟩ := List.mem_filter.mp hr
  exact ⟨r, Table.find_eq_some.mpr ⟨hm, rfl⟩, of_decide_eq_true hd⟩

/-- Only given up bundles are due while submissions commit in time: the row of any other is
younger than its submission, and has no failed attempt. -/
theorem Invariant.due_released (h : Invariant s) (hs : Timely s) {k : ObjectKey}
    (hk : k ∈ dueOrphans s) : (s.bundle k).Released := by
  obtain ⟨r, hr, hdue⟩ := mem_dueOrphans hk
  have hrow : (s.bundle k).row ≠ .absent := by simp [row_bundle_eq_absent, hr]
  rcases (h.accounted k).released hrow with hrel | ⟨hyoung, hstage⟩
  · exact hrel
  · obtain ⟨r', t, hr', ht, hattempts, hcreated⟩ := rowStatus_eq_young.mp hyoung
    cases hr.symm.trans hr'
    rw [stage_bundle ht] at hstage
    have hcommit : t.phase.mayCommit = true := by
      have := t.phase.settled_stage
      rcases hstage with hstage | hstage <;> rw [hstage] at this <;> simpa [Stage.settled] using this
    have hage := hs t (Table.find_eq_some.mp ht).1 hcommit
    rcases hdue with hdue | hdue <;> omega

theorem submitCrash_started {t : Submission} (h : Invariant s)
    (ht : s.submissions.find t.objectKey = some t) (ha : Advanced s t s') :
    s'.reconcilers = s.reconcilers ∧ ∀ t' ∈ s'.submissions, t'.startedAt ≤ s'.now := by
  have hm := (Table.find_eq_some.mp ht).1
  cases ha with
  | quiet hu hp =>
    refine ⟨hu.reconcilers, fun t' ht' => ?_⟩
    rw [show (State.advance _ _ _).now = s.now from hu.now]
    rcases (mem_advance (by rw [hu.submissions]; exact ht)).mp ht' with ⟨ht', -⟩ | rfl
    · exact h.started t' (hu.submissions ▸ ht')
    · exact h.started t hm
  | committed hphase hp =>
    refine ⟨rfl, fun t' ht' => ?_⟩
    rcases (mem_advance (s := s.commitEvent t.objectKey _) ht).mp ht' with ⟨ht', -⟩ | rfl
    · exact h.started t' ht'
    · exact h.started t hm

/-! ## The steps of a reconciler -/

/-- What one statement of a reconciler does: to the bundle at the head of its list, and to
itself. -/
structure Swept (s : State) (r : Reconciler) (s' : State) : Prop where
  moves : ∀ k, Move (s.bundle k) (s'.bundle k)
  registry : s'.now = s.now ∧ s'.events = s.events ∧ s'.jobs = s.jobs ∧
    s'.submissions = s.submissions
  reconcilers : ∀ r' ∈ s'.reconcilers, r' ∈ s.reconcilers ∨
    (r'.pending ⊆ r.pending ∧ (r'.next = .clearing →
      ∀ k, r'.pending.head? = some k → (s'.bundle k).stored = false))

theorem Swept.resume {u : State} {r : Reconciler} (hr : s.reconcilers.find r.id = some r)
    (hmoves : ∀ k, Move (s.bundle k) (u.bundle k)) (hu : SameRegistry s u)
    {pending : List ObjectKey} {next : Cleanup} (hsub : pending ⊆ r.pending)
    (hclear : next = .clearing → ∀ k, pending.head? = some k → (u.bundle k).stored = false) :
    Swept s r (u.resume r.id pending next) := by
  refine ⟨hmoves, ⟨hu.now, hu.events, hu.jobs, hu.submissions⟩, fun r' h => ?_⟩
  simp only [State.resume, Table.mem_modify, hu.reconcilers, hr, Option.some.injEq,
    exists_eq_left'] at h
  rcases h with ⟨h, -⟩ | rfl
  · exact .inl h
  · exact .inr ⟨hsub, hclear⟩

theorem moves_after {effect : State → State} {key : ObjectKey} {b : Bundle}
    (hself : (effect s).bundle key = b)
    (hother : ∀ k ≠ key, (effect s).bundle k = s.bundle k) {applied : Bool}
    (hmove : applied = true → Move (s.bundle key) b) (k : ObjectKey) :
    Move (s.bundle k) ((s.after effect applied).bundle k) := by
  cases applied with
  | false => exact .stay
  | true =>
    change Move (s.bundle k) ((effect s).bundle k)
    by_cases hk : k = key
    · rw [hk, hself]
      exact hmove rfl
    · rw [hother k hk]
      exact .stay

theorem reconcileOrphans_swept (h : Invariant s) {r : Reconciler}
    (hr : s.reconcilers.find r.id = some r) {a : SweepStep}
    (hs : reconcileOrphans s r a = some s') : Swept s r s' := by
  have hm : r ∈ s.reconcilers := (Table.find_eq_some.mp hr).1
  cases a with
  | deleteObject reply =>
    simp only [reconcileOrphans] at hs
    split at hs <;> cases hs
    next key rest hnext hpending =>
    have hrel := h.listed r hm key (by rw [hpending]; exact List.mem_cons_self)
    refine .resume hr ?_ (.after ⟨rfl, rfl, rfl, rfl, rfl⟩ _) (hpending ▸ List.Subset.refl _) ?_
    · exact moves_after bundle_deleteObject_self (fun _ hk => bundle_deleteObject_of_ne hk)
        fun _ => .sweep hrel true
    · intro hclear k hk
      cases hk
      cases reply with
      | failed applied => cases hclear
      | ok =>
        change ((s.deleteObject key).bundle key).stored = false
        rw [bundle_deleteObject_self]
  | clearOrphan applied =>
    simp only [reconcileOrphans] at hs
    split at hs <;> cases hs
    next key rest hnext hpending =>
    have hrel := h.listed r hm key (by rw [hpending]; exact List.mem_cons_self)
    have hclear := h.cleared r hm hnext key (by rw [hpending]; rfl)
    refine .resume hr ?_ (.after ⟨rfl, rfl, rfl, rfl, rfl⟩ _)
      (hpending ▸ List.subset_cons_self _ _) nofun
    exact moves_after bundle_deleteOrphan_self (fun _ hk => bundle_deleteOrphan_of_ne hk)
      fun _ => .forget hrel hclear true
  | retryOrphan applied =>
    simp only [reconcileOrphans] at hs
    split at hs <;> cases hs
    next key rest hnext hpending =>
    have hrel := h.listed r hm key (by rw [hpending]; exact List.mem_cons_self)
    refine .resume hr ?_ (.after ⟨rfl, rfl, rfl, rfl, rfl⟩ _)
      (hpending ▸ List.subset_cons_self _ _) nofun
    exact moves_after bundle_retryOrphan_self (fun _ hk => bundle_retryOrphan_of_ne hk)
      fun _ => .retry hrel true
  | crash =>
    simp only [reconcileOrphans] at hs
    cases hs
    exact .resume hr (fun _ => .stay) (.refl s) (List.nil_subset _) nofun

theorem insert_moves (h : Invariant s) {t : Submission} (hp : t.phase = .registering)
    (hnone : s.submissions.find t.objectKey = none) (k : ObjectKey) :
    Move (s.bundle k) ({ s with submissions := s.submissions.insert t }.bundle k) := by
  by_cases hk : k = t.objectKey
  · subst hk
    have hunused := stage_bundle_eq_unused.mpr hnone
    have hb := h.accounted t.objectKey
    simp only [Bundle.Accounted, hunused] at hb
    have hfind : (s.submissions.insert t).find t.objectKey = some t := Table.find_insert_self hnone
    have heq : State.bundle { s with submissions := s.submissions.insert t } t.objectKey =
        { s.bundle t.objectKey with stage := .opening } := by
      refine bundle_eq ?_ ?_ stored_bundle.symm rfl
      · simp only [State.stage, hfind, Option.map_some, hp]
        rfl
      · exact (rowStatus_eq_absent.mpr (row_bundle_eq_absent.mp hb.1)).trans hb.1.symm
    rw [heq]
    exact .submit hunused
  · rw [show State.bundle { s with submissions := s.submissions.insert t } k = s.bundle k from
      bundle_congr (Table.find_insert_of_ne hk) rfl Iff.rfl rfl]
    exact .stay

theorem submit_fresh {scope : KeyScope} {eventId : Uuid} (hs : s.submit scope eventId = some s') :
    ∃ t : Submission, t.phase = .registering ∧ t.startedAt = s.now ∧
      s.submissions.find t.objectKey = none ∧
      s' = { s with submissions := s.submissions.insert t } := by
  unfold State.submit at hs
  split_ifs at hs with hfresh
  cases hs
  refine ⟨_, rfl, rfl, Table.find_eq_none.mpr fun t ht hk => hfresh ?_, rfl⟩
  exact List.any_eq_true.mpr ⟨t, ht, by simp [hk]⟩

/-! ## Every step -/

theorem step_moves (h : Invariant s) {a : Action} (hs : step s a = some s') (k : ObjectKey) :
    Move (s.bundle k) (s'.bundle k) := by
  cases a with
  | tick seconds =>
    cases hs
    exact .stay
  | submit scope eventId =>
    obtain ⟨t, hp, -, hnone, rfl⟩ := submit_fresh hs
    exact insert_moves h hp hnone k
  | request key a =>
    obtain ⟨t, ht, ha⟩ := Option.bind_eq_some_iff.mp hs
    exact (submitCrash_moves ht (h.started t (Table.find_eq_some.mp ht).1) (h.accounted key)
      ha).move k
  | reconcile id =>
    simp only [step, startReconciler] at hs
    split_ifs at hs
    cases hs
    exact .stay
  | sweep id a =>
    obtain ⟨r, hr, ha⟩ := Option.bind_eq_some_iff.mp hs
    obtain rfl := (Table.find_eq_some.mp hr).2
    exact (reconcileOrphans_swept h hr ha).moves k

/-- The reconcilers after a step, with what they list and what they take for erased. -/
theorem step_reconcilers (h : Invariant s) {a : Action} (hs : step s a = some s') :
    ∀ r' ∈ s'.reconcilers,
      (∃ r ∈ s.reconcilers, r'.pending ⊆ r.pending ∧ (r'.next = .clearing → r' = r ∨
        ∀ k, r'.pending.head? = some k → (s'.bundle k).stored = false)) ∨
      (r'.pending = dueOrphans s ∧ r'.next = .deleting) := by
  cases a with
  | tick seconds =>
    cases hs
    exact fun r hr => .inl ⟨r, hr, List.Subset.refl _, fun _ => .inl rfl⟩
  | submit scope eventId =>
    obtain ⟨t, -, -, -, rfl⟩ := submit_fresh hs
    exact fun r hr => .inl ⟨r, hr, List.Subset.refl _, fun _ => .inl rfl⟩
  | request key a =>
    obtain ⟨t, ht, ha⟩ := Option.bind_eq_some_iff.mp hs
    obtain rfl := (Table.find_eq_some.mp ht).2
    rw [(submitCrash_started h ht (submitCrash_advanced ha)).1]
    exact fun r hr => .inl ⟨r, hr, List.Subset.refl _, fun _ => .inl rfl⟩
  | reconcile id =>
    simp only [step, startReconciler] at hs
    split_ifs at hs with hid
    cases hs
    intro r hr
    rcases (Table.mem_insert (Option.not_isSome_iff_eq_none.mp hid)).mp hr with rfl | hr
    · exact .inr ⟨rfl, rfl⟩
    · exact .inl ⟨r, hr, List.Subset.refl _, fun _ => .inl rfl⟩
  | sweep id a =>
    obtain ⟨r, hr, ha⟩ := Option.bind_eq_some_iff.mp hs
    obtain rfl := (Table.find_eq_some.mp hr).2
    intro r' hr'
    rcases (reconcileOrphans_swept h hr ha).reconcilers r' hr' with hr' | ⟨hsub, hclear⟩
    · exact .inl ⟨r', hr', List.Subset.refl _, fun _ => .inl rfl⟩
    · exact .inl ⟨r, (Table.find_eq_some.mp hr).1, hsub, fun hn => .inr (hclear hn)⟩

theorem step_started (h : Invariant s) {a : Action} (hs : step s a = some s') :
    ∀ t ∈ s'.submissions, t.startedAt ≤ s'.now := by
  cases a with
  | tick seconds =>
    cases hs
    exact fun t ht => (h.started t ht).trans (Nat.le_add_right _ _)
  | submit scope eventId =>
    obtain ⟨t, -, hnow, hnone, rfl⟩ := submit_fresh hs
    intro t' ht'
    rcases (Table.mem_insert hnone).mp ht' with rfl | ht'
    · exact hnow.le
    · exact h.started t' ht'
  | request key a =>
    obtain ⟨t, ht, ha⟩ := Option.bind_eq_some_iff.mp hs
    obtain rfl := (Table.find_eq_some.mp ht).2
    exact (submitCrash_started h ht (submitCrash_advanced ha)).2
  | reconcile id =>
    simp only [step, startReconciler] at hs
    split_ifs at hs
    cases hs
    exact h.started
  | sweep id a =>
    obtain ⟨r, hr, ha⟩ := Option.bind_eq_some_iff.mp hs
    obtain rfl := (Table.find_eq_some.mp hr).2
    obtain ⟨hnow, -, -, hsub⟩ := (reconcileOrphans_swept h hr ha).registry
    rw [hnow, hsub]
    exact h.started

theorem step_registry (h : Invariant s) {a : Action} (hs : step s a = some s') :
    Registry s' := by
  cases a with
  | tick seconds =>
    cases hs
    exact h.registry.congr rfl rfl rfl
  | submit scope eventId => exact h.registry.submit hs
  | request key a =>
    obtain ⟨t, ht, ha⟩ := Option.bind_eq_some_iff.mp hs
    obtain rfl := (Table.find_eq_some.mp ht).2
    refine h.registry.submitCrash ht (fun hp e he hk => ?_) (submitCrash_advanced ha)
    have hsettled := t.phase.settled_stage
    rw [hp] at hsettled
    have hr := (h.accounted t.objectKey).not_referenced fun hd => by
      rw [stage_bundle ht] at hd
      rw [hd] at hsettled
      cases hsettled
    exact absurd (referenced_bundle.mpr ⟨e, he, hk⟩) (by simp [hr])
  | reconcile id =>
    simp only [step, startReconciler] at hs
    split_ifs at hs
    cases hs
    exact h.registry.congr rfl rfl rfl
  | sweep id a =>
    obtain ⟨r, hr, ha⟩ := Option.bind_eq_some_iff.mp hs
    obtain rfl := (Table.find_eq_some.mp hr).2
    obtain ⟨-, he, hj, hsub⟩ := (reconcileOrphans_swept h hr ha).registry
    exact h.registry.congr he hj hsub

theorem Invariant.step (h : Invariant s) (htimely : Timely s) {a : Action}
    (hs : CrashIngest.step s a = some s') : Invariant s' where
  accounted k := (step_moves h hs k).accounted (h.accounted k)
  started := step_started h hs
  listed r' hr' k hk := by
    rcases step_reconcilers h hs r' hr' with ⟨r, hr, hsub, -⟩ | ⟨hdue, -⟩
    · exact (step_moves h hs k).released (h.listed r hr k (hsub hk))
    · exact (step_moves h hs k).released (h.due_released htimely (hdue ▸ hk))
  cleared r' hr' hn k hk := by
    rcases step_reconcilers h hs r' hr' with ⟨r, hr, -, hclear⟩ | ⟨-, hdel⟩
    · rcases hclear hn with rfl | hclear
      · exact (step_moves h hs k).not_stored (h.listed r' hr k (List.mem_of_mem_head? hk))
          (h.cleared r' hr hn k hk)
      · exact hclear k hk
    · rw [hdel] at hn
      cases hn
  registry := step_registry h hs

theorem step_events (h : Invariant s) {a : Action} (hs : step s a = some s') :
    s.events ⊆ s'.events := by
  cases a with
  | tick seconds =>
    cases hs
    exact List.Subset.refl _
  | submit scope eventId =>
    obtain ⟨t, -, -, -, rfl⟩ := submit_fresh hs
    exact List.Subset.refl _
  | request key a =>
    obtain ⟨t, ht, ha⟩ := Option.bind_eq_some_iff.mp hs
    cases submitCrash_advanced ha with
    | quiet hu hp => exact fun e he => hu.events.symm ▸ he
    | committed hphase hp => exact List.subset_cons_self _ _
  | reconcile id =>
    simp only [step, startReconciler] at hs
    split_ifs at hs
    cases hs
    exact List.Subset.refl _
  | sweep id a =>
    obtain ⟨r, hr, ha⟩ := Option.bind_eq_some_iff.mp hs
    obtain rfl := (Table.find_eq_some.mp hr).2
    exact fun e he => (reconcileOrphans_swept h hr ha).registry.2.1.symm ▸ he

theorem Invariant.event_stored (h : Invariant s) {e : CrashEvent} (he : e ∈ s.events) :
    e.objectKey ∈ s.objects :=
  stored_bundle.mp ((h.accounted e.objectKey).stored (referenced_bundle.mpr ⟨e, he, rfl⟩))

theorem Invariant.tracked (h : Invariant s) {k : ObjectKey} (hk : k ∈ s.objects) :
    (∃ e ∈ s.events, e.objectKey = k) ∨ ∃ r ∈ s.orphans, r.objectKey = k := by
  cases hr : (s.bundle k).referenced with
  | true => exact .inl (referenced_bundle.mp hr)
  | false =>
    have hrow := (h.accounted k).tracked (stored_bundle.mpr hk) hr
    obtain ⟨r, hf⟩ := Option.ne_none_iff_exists'.mp (row_bundle_eq_absent.not.mp hrow)
    exact .inr ⟨r, Table.find_eq_some.mp hf⟩

theorem invariant_of_reachable (h : Reachable step Timely .init s) : Invariant s :=
  h.invariant Invariant Invariant.init fun _ _ _ htimely hi hs _ => hi.step htimely hs

/-- In every state that timely submissions reach, the bundle of each event is stored and no
step deletes it, each stored bundle is referenced or tracked, an acknowledged event exists
with its bundle, and a project has one event with one job for a crash GUID. -/
theorem bundles_safe (h : Reachable step Timely .init s) :
    (∀ e ∈ s.events, e.objectKey ∈ s.objects) ∧
    (∀ a s', step s a = some s' → ∀ e ∈ s.events, e ∈ s'.events ∧ e.objectKey ∈ s'.objects) ∧
    (∀ k ∈ s.objects, (∃ e ∈ s.events, e.objectKey = k) ∨ ∃ r ∈ s.orphans, r.objectKey = k) ∧
    (∀ projectId guid, s.indexed projectId guid ≤ 1) ∧
    (∀ e ∈ s.events, s.eventJobs e.id = 1) ∧
    ∀ t ∈ s.submissions, ∀ id deduplicated, t.phase = .answered (.accepted id deduplicated) →
      ∃ e ∈ s.events, e.id = id ∧ e.projectId = t.objectKey.projectId ∧
        e.objectKey ∈ s.objects := by
  have hi := invariant_of_reachable h
  refine ⟨fun e he => hi.event_stored he, fun a s' hs e he => ?_, fun k hk => hi.tracked hk,
    hi.registry.indexed, hi.registry.job, fun t ht id deduplicated hp => ?_⟩
  · have he' := step_events hi hs he
    exact ⟨he', (hi.step h.allowed hs).event_stored he'⟩
  · obtain ⟨e, he, hid, hproject⟩ :=
      hi.registry.acknowledged t ht id deduplicated (by rw [hp]; rfl)
    exact ⟨e, he, hid, hproject, hi.event_stored he⟩

/-- Two submissions of one crash, of which the first commits, and a failed upload whose
bundle the reconciler deletes two hours later. -/
def sampleRun : List Action :=
  let scope : KeyScope := ⟨1, 2⟩
  let names : Text × Text := ("UECC-A".toList, "UECC-A.uecrash".toList)
  let key (id : Uuid) : ObjectKey := ⟨1, 2, id⟩
  [.submit scope 10, .submit scope 11, .submit scope 12] ++
  ([.registerPendingObject .ok, .storeRequest, .inspectSpool (.ok names), .selectExisting,
    .insertEvent, .commit].map (.request (key 10))) ++
  ([.registerPendingObject .ok, .storeRequest, .inspectSpool (.ok names), .selectExisting,
    .deleteObject .ok, .clearOrphan true].map (.request (key 11))) ++
  ([.registerPendingObject .ok, .storeRequestFailed .unavailable true,
    .deleteObject (.failed false), .recordOrphan false].map (.request (key 12))) ++
  [.tick 7200, .reconcile 0, .sweep 0 (.deleteObject .ok), .sweep 0 (.clearOrphan true)]

theorem sampleRun_runs : (run step Timely .init sampleRun).isSome = true := by decide

def sampleState : State := (run step Timely .init sampleRun).get sampleRun_runs

theorem sampleState_reachable : Reachable step Timely .init sampleState :=
  .of_run (.init (by decide)) (Option.some_get _).symm

theorem bundles_safe_sample :
    sampleState.objects = {⟨1, 2, 10⟩} ∧ sampleState.events.length = 1 ∧
      (∀ e ∈ sampleState.events, e.objectKey ∈ sampleState.objects) ∧
      (∀ projectId guid, sampleState.indexed projectId guid ≤ 1) :=
  ⟨by decide +kernel, by decide +kernel, (bundles_safe sampleState_reachable).1,
    (bundles_safe sampleState_reachable).2.2.2.1⟩

end
end FaultLane.CrashIngest
