import FaultLane.RawScheduling

set_option autoImplicit false

/-!
# What wedges the scheduling of raw deletions

The batches take the due objects of reconciled projects in the order of their deadlines. A
finished job of such an object stops them for good, and so does a batch that is full of objects
of other projects.
-/
namespace FaultLane.RawScheduling
open KeyedTable JobQueue SortDedup TransitionSystem BatchedQueue
open Usage (RawLifecycle RetentionClass daySeconds)

/-! ## Jobs and their objects -/

/-- Every job is that of an object and its event. -/
def Database.Paired (db : Database) : Prop :=
  ∀ j ∈ db.jobs, ∃ o ∈ db.objects, o.id = j.objectId ∧ o.eventId = j.eventId

structure Database.Sound (db : Database) : Prop where
  checked : db.Checked
  paired : db.Paired

/-- What a transaction leaves of the two tables' keys. -/
structure Database.Keeps (db db' : Database) : Prop where
  objects : ∀ o ∈ db.objects, ∃ o' ∈ db'.objects, o'.id = o.id ∧ o'.eventId = o.eventId
  jobs : ∀ j' ∈ db'.jobs, (∃ j ∈ db.jobs, j'.objectId = j.objectId ∧ j'.eventId = j.eventId) ∨
    ∃ o ∈ db.objects, o.id = j'.objectId ∧ o.eventId = j'.eventId

section keeps
variable {db db' db'' : Database}

theorem Database.Keeps.paired (h : db.Keeps db') (hp : db.Paired) : db'.Paired := by
  intro j' hj'
  have hold : ∃ o ∈ db.objects, o.id = j'.objectId ∧ o.eventId = j'.eventId := by
    rcases h.jobs j' hj' with ⟨j, hj, hid, hevent⟩ | hnew
    · rw [hid, hevent]
      exact hp j hj
    · exact hnew
  obtain ⟨o, ho, hid, hevent⟩ := hold
  obtain ⟨o', ho', hid', hevent'⟩ := h.objects o ho
  exact ⟨o', ho', hid'.trans hid, hevent'.trans hevent⟩

theorem Database.Keeps.of_objects (ho : ∀ o ∈ db.objects, ∃ o' ∈ db'.objects,
    o'.id = o.id ∧ o'.eventId = o.eventId) (hj : db'.jobs = db.jobs) : db.Keeps db' :=
  ⟨ho, fun j hmem => .inl ⟨j, hj ▸ hmem, rfl, rfl⟩⟩

theorem Database.Keeps.refl (db : Database) : db.Keeps db :=
  .of_objects (fun o ho => ⟨o, ho, rfl, rfl⟩) rfl

theorem Database.Keeps.of_jobs (ho : db'.objects = db.objects)
    (hj : ∀ j' ∈ db'.jobs, (∃ j ∈ db.jobs, j'.objectId = j.objectId ∧ j'.eventId = j.eventId) ∨
      ∃ o ∈ db.objects, o.id = j'.objectId ∧ o.eventId = j'.eventId) : db.Keeps db' :=
  ⟨fun o hmem => ⟨o, ho ▸ hmem, rfl, rfl⟩, hj⟩

/-- A change of an object keeps its ids. -/
theorem keeps_modify (objectId : Uuid) (f : RawObject → RawObject) (hf : ∀ o, (f o).id = o.id)
    (hevent : ∀ o, (f o).eventId = o.eventId) :
    db.Keeps { db with objects := db.objects.modify objectId f hf } := by
  refine .of_objects (fun o ho => ?_) rfl
  by_cases hid : o.id = objectId
  · exact ⟨f o, List.mem_map.mpr ⟨o, ho, if_pos hid⟩, hf o, hevent o⟩
  · exact ⟨o, List.mem_map.mpr ⟨o, ho, if_neg hid⟩, rfl, rfl⟩

theorem commit_eq_some : db.commit = some db' ↔ db.Checked ∧ db' = db := by
  unfold Database.commit
  rw [Option.ite_none_right_eq_some, Option.some.injEq, eq_comm (a := db)]

theorem keeps_enqueueRawDeletion {objectId : Uuid} {c : RetentionClass} {now : Nat}
    (h : db.enqueueRawDeletion objectId c now = some db') : db.Keeps db' := by
  unfold Database.enqueueRawDeletion at h
  split at h
  · next o hfind =>
    split_ifs at h with hstored
    · obtain ⟨-, rfl⟩ := commit_eq_some.mp h
      have hobjects : db.Keeps { db with
          objects := db.objects.modify objectId (·.deleting c) fun _ => rfl } :=
        keeps_modify objectId _ _ fun _ => rfl
      refine ⟨hobjects.objects, fun j hj => ?_⟩
      rcases Table.mem_of_mem_insert hj with rfl | hj
      · exact .inr ⟨o, (Table.find_eq_some.mp hfind).1, rfl, rfl⟩
      · exact .inl ⟨j, hj, rfl, rfl⟩
    · cases h
      exact .refl db
  · cases h
    exact .refl db

theorem keeps_setRetentionClass (objectId : Uuid) (c : RetentionClass) :
    db.Keeps (db.setRetentionClass objectId c) :=
  keeps_modify objectId _ _ fun _ => rfl

theorem keeps_setObject (objectId : Uuid) (lifecycle : RawLifecycle) (deletedAt : Option Nat)
    (c : RetentionClass) : db.Keeps (db.setObject objectId lifecycle deletedAt c) :=
  keeps_modify objectId _ _ fun _ => rfl

/-- A job that is changed stays the job of its event. -/
theorem keeps_setJob {objectId : Uuid} {j j' : JobRow} (hj : db.jobs.find objectId = some j)
    (hevent : j'.eventId = j.eventId) (h : db.setJob objectId j' = some db') : db.Keeps db' := by
  obtain ⟨-, rfl⟩ := commit_eq_some.mp h
  refine .of_jobs rfl fun x hx => .inl ?_
  obtain ⟨old, hold, rfl⟩ := List.mem_map.mp hx
  refine ⟨old, hold, ?_⟩
  split_ifs with hid
  · have hfound : db.jobs.find objectId = some old := Table.find_eq_some.mpr ⟨hold, hid⟩
    obtain rfl := Option.some.inj (hj.symm.trans hfound)
    exact ⟨rfl, hevent⟩
  · exact ⟨rfl, rfl⟩

theorem keeps_updateJob {objectId : Uuid} {update : JobRow → Option JobRow}
    (hupdate : ∀ j j', update j = some j' → j'.eventId = j.eventId)
    (h : db.updateJob objectId update = some db') : db.Keeps db' := by
  obtain ⟨j, hj, h⟩ := Option.bind_eq_some_iff.mp h
  obtain ⟨j', hj', h⟩ := Option.bind_eq_some_iff.mp h
  exact keeps_setJob hj (hupdate j j' hj') h

end keeps

/-! ## Jobs keep their events -/

section jobs
variable {j j' : JobRow} {h : Holder} {now : Nat}

theorem claim_eventId (hj : j.claim h now = some j') : j'.eventId = j.eventId := by
  unfold JobRow.claim at hj
  split_ifs at hj
  cases hj
  rfl

theorem heartbeat_eventId (hj : j.heartbeat h now = some j') : j'.eventId = j.eventId := by
  unfold JobRow.heartbeat at hj
  split_ifs at hj
  cases hj
  rfl

theorem lockLease_eventId (hj : j.lockLease h now = some j') : j'.eventId = j.eventId := by
  unfold JobRow.lockLease at hj
  split_ifs at hj
  cases hj
  rfl

theorem completeJob_eventId (hj : j.completeJob h now = some j') : j'.eventId = j.eventId := by
  unfold JobRow.completeJob at hj
  split_ifs at hj
  cases hj
  rfl

theorem terminalJob_eventId {quarantine resource : Bool} {code : String}
    (hj : j.terminalJob h now quarantine resource code = some j') : j'.eventId = j.eventId := by
  unfold JobRow.terminalJob at hj
  split_ifs at hj
  all_goals cases hj; rfl

theorem releaseJob_eventId {seconds : Nat} {resource dependency : Bool} {code : String}
    (hj : j.releaseJob h now seconds resource dependency code = some j') :
    j'.eventId = j.eventId := by
  unfold JobRow.releaseJob at hj
  split_ifs at hj
  all_goals cases hj; rfl

end jobs

/-! ## Statements that succeed -/

section sound
variable {db db' : Database} {now : Nat}

theorem new_checked (objectId eventId now : Nat) :
    (JobRow.new objectId eventId now).Checked :=
  ⟨rfl, nofun, Nat.zero_le _, Nat.succ_le_succ (Nat.zero_le 4), Nat.le_add_right 5 15⟩

/-- What the constraints and the pairing say of the jobs. -/
structure JobsSound (objects : Table RawObject.id) (jobs : Table JobRow.objectId) : Prop where
  checked : ∀ j ∈ jobs, j.Checked
  events : (jobs.rows.map JobRow.eventId).Nodup
  paired : ∀ j ∈ jobs, ∃ o ∈ objects, o.id = j.objectId ∧ o.eventId = j.eventId

/-- A new job of an object breaks no constraint: another job of the event would be a job of the
object. -/
theorem JobsSound.insert {objects : Table RawObject.id} {jobs : Table JobRow.objectId}
    (h : JobsSound objects jobs) (hevents : (objects.rows.map RawObject.eventId).Nodup)
    {o : RawObject} (ho : o ∈ objects) (now : Nat) :
    JobsSound objects (jobs.insert (.new o.id o.eventId now)) := by
  by_cases hkey : o.id ∈ jobs.rows.map JobRow.objectId
  · have hsame : jobs.insert (.new o.id o.eventId now) = jobs := dif_pos hkey
    rwa [hsame]
  have hnone : jobs.find o.id = none :=
    Table.find_eq_none.mpr fun j hj hid => hkey (hid ▸ List.mem_map_of_mem hj)
  have hrows : (jobs.insert (.new o.id o.eventId now)).rows =
      .new o.id o.eventId now :: jobs.rows := Table.rows_insert hnone
  refine ⟨fun j hj => ?_, ?_, fun j hj => ?_⟩
  · rcases Table.mem_of_mem_insert hj with rfl | hj
    · exact new_checked _ _ _
    · exact h.checked j hj
  · rw [hrows, List.map_cons, List.nodup_cons]
    refine ⟨fun hmem => ?_, h.events⟩
    obtain ⟨j, hj, hevent⟩ := List.mem_map.mp hmem
    obtain ⟨x, hx, hid, hpair⟩ := h.paired j hj
    obtain rfl : x = o := List.inj_on_of_nodup_map hevents hx ho (hpair.trans hevent)
    exact hkey (hid ▸ List.mem_map_of_mem hj)
  · rcases Table.mem_of_mem_insert hj with rfl | hj
    · exact ⟨o, ho, rfl, rfl⟩
    · exact h.paired j hj

theorem Database.Sound.jobsSound (h : db.Sound) : JobsSound db.objects db.jobs :=
  ⟨h.checked.2.2.1, h.checked.2.2.2, h.paired⟩

theorem JobsSound.sound {objects : Table RawObject.id} {jobs : Table JobRow.objectId}
    (h : JobsSound objects jobs) (hobjects : ∀ o ∈ objects.rows, o.Checked)
    (hevents : (objects.rows.map RawObject.eventId).Nodup) (projects : Table Project.id) :
    Database.Sound ⟨projects, objects, jobs⟩ :=
  ⟨⟨hobjects, hevents, h.checked, h.events⟩, h.paired⟩

/-- A change of the objects that keeps their ids. -/
theorem JobsSound.objects {objects objects' : Table RawObject.id} {jobs : Table JobRow.objectId}
    (h : JobsSound objects jobs) (hkept : ∀ o ∈ objects, ∃ o' ∈ objects',
      o'.id = o.id ∧ o'.eventId = o.eventId) : JobsSound objects' jobs := by
  refine ⟨h.checked, h.events, fun j hj => ?_⟩
  obtain ⟨o, ho, hid, hevent⟩ := h.paired j hj
  obtain ⟨o', ho', hid', hevent'⟩ := hkept o ho
  exact ⟨o', ho', hid'.trans hid, hevent'.trans hevent⟩

/-- A change of rows that keeps the ids, and the check of each row that it changes. -/
structure Rewrites (objects objects' : Table RawObject.id) (g : RawObject → RawObject) : Prop where
  rows : objects'.rows = objects.rows.map g
  id : ∀ o, (g o).id = o.id
  eventId : ∀ o, (g o).eventId = o.eventId
  checked : ∀ o ∈ objects, o.Checked → (g o).Checked

section rewrites
variable {objects objects' : Table RawObject.id} {g : RawObject → RawObject}

theorem Rewrites.kept (h : Rewrites objects objects' g) {o : RawObject} (ho : o ∈ objects) :
    ∃ o' ∈ objects', o'.id = o.id ∧ o'.eventId = o.eventId := by
  refine ⟨g o, ?_, h.id o, h.eventId o⟩
  rw [← Table.mem_rows, h.rows]
  exact List.mem_map_of_mem ho

theorem Rewrites.sound (h : Rewrites objects objects' g) {jobs jobs' : Table JobRow.objectId}
    {projects : Table Project.id} (hsound : Database.Sound ⟨projects, objects, jobs⟩)
    (hjobs : JobsSound objects jobs') : Database.Sound ⟨projects, objects', jobs'⟩ := by
  refine (hjobs.objects fun o ho => h.kept ho).sound ?_ ?_ projects
  · intro o' ho'
    rw [h.rows] at ho'
    obtain ⟨o, ho, rfl⟩ := List.mem_map.mp ho'
    exact h.checked o ho (hsound.checked.1 o ho)
  · have hevents : RawObject.eventId ∘ g = RawObject.eventId := funext h.eventId
    rw [h.rows, List.map_map, hevents]
    exact hsound.checked.2.1

end rewrites

theorem deleting_checked {o : RawObject} (h : o.Checked) (hstored : o.lifecycle = .stored)
    (c : RetentionClass) : (o.deleting c).Checked := by
  simpa [RawObject.Checked, RawObject.deleting, hstored] using h

theorem enqueueRawDeletion_sound (h : db.Sound) (objectId : Uuid) (c : RetentionClass)
    (now : Nat) : ∃ db', db.enqueueRawDeletion objectId c now = some db' ∧ db'.Sound := by
  unfold Database.enqueueRawDeletion
  split
  · next o hfind =>
    obtain ⟨ho, hid⟩ := Table.find_eq_some.mp hfind
    split_ifs with hstored
    · have hrewrites : Rewrites db.objects (db.objects.modify objectId (·.deleting c) fun _ => rfl)
          fun o => if o.id = objectId then o.deleting c else o := by
        refine ⟨rfl, fun x => by split_ifs <;> rfl, fun x => by split_ifs <;> rfl, ?_⟩
        intro x hx hchecked
        split_ifs with hx'
        · obtain rfl := Table.eq_of_key_eq hx ho (hx'.trans hid.symm)
          exact deleting_checked hchecked hstored c
        · exact hchecked
      have hsound := hrewrites.sound h (h.jobsSound.insert h.checked.2.1 ho now)
      exact ⟨_, commit_eq_some.mpr ⟨hsound.checked, rfl⟩, hsound⟩
    · exact ⟨db, rfl, h⟩
  · exact ⟨db, rfl, h⟩

/-- Induction over the selected rows. -/
theorem scheduleExpiredRawLegacy_sound (h : db.Sound) (now : Nat) (locked : List Uuid) :
    ∃ db', db.scheduleExpiredRawLegacy now locked = some db' ∧ db'.Sound := by
  unfold Database.scheduleExpiredRawLegacy
  induction db.legacyRows now locked generalizing db with
  | nil => exact ⟨db, rfl, h⟩
  | cons o rest ih =>
    obtain ⟨next, hnext, hsound⟩ := enqueueRawDeletion_sound h o.id .expired now
    obtain ⟨db', hdb', hsound'⟩ := ih hsound
    refine ⟨db', ?_, hsound'⟩
    rw [List.foldlM_cons, hnext]
    exact hdb'

end sound

/-! ## One batch -/

section batch
variable {db db' : Database} {now n : Nat} {locked : List Uuid} {o : RawObject}

/-- The job of the object is done. -/
def Database.Finished (db : Database) (o : RawObject) : Prop :=
  ∃ j ∈ db.jobs, j.objectId = o.id ∧ j.state.finished = true

theorem mem_dueQueue :
    o ∈ db.dueQueue now locked ↔ o ∈ db.objects ∧ o.dueAt now ∧ o.id ∉ locked := by
  unfold Database.dueQueue sortBy
  rw [List.mem_insertionSort, List.mem_filter, decide_eq_true_eq]
  rfl

theorem nodup_objects (db : Database) : db.objects.rows.Nodup := db.objects.unique.of_map

theorem nodup_dueQueue (db : Database) (now : Nat) (locked : List Uuid) :
    (db.dueQueue now locked).Nodup := by
  unfold Database.dueQueue sortBy
  exact (List.perm_insertionSort _ _).nodup_iff.mpr ((nodup_objects db).filter _)

theorem mem_due (h : o ∈ db.due now n locked) :
    o ∈ db.objects ∧ o.dueAt now ∧ o.id ∉ locked ∧ db.reconciled o = true := by
  obtain ⟨htake, hready⟩ := List.mem_filter.mp h
  obtain ⟨ho, hdue, hlocked⟩ := mem_dueQueue.mp (List.mem_of_mem_take htake)
  exact ⟨ho, hdue, hlocked, hready⟩

theorem JobsSound.foldl_insert {objects : Table RawObject.id} {jobs : Table JobRow.objectId}
    (h : JobsSound objects jobs) (hevents : (objects.rows.map RawObject.eventId).Nodup)
    {due : List RawObject} (hdue : ∀ o ∈ due, o ∈ objects) (now : Nat) :
    JobsSound objects (due.foldl (fun jobs o => jobs.insert (.new o.id o.eventId now)) jobs) := by
  induction due generalizing jobs with
  | nil => exact h
  | cons o rest ih =>
    exact ih (h.insert hevents (hdue o List.mem_cons_self) now)
      fun x hx => hdue x (List.mem_cons_of_mem o hx)

/-- Without a finished job among them the upsert only inserts. -/
theorem queueDeletions_eq {jobs : Table JobRow.objectId} {due : List RawObject}
    (h : ∀ o ∈ due, ∀ j ∈ jobs, j.objectId = o.id → j.state.finished = false) (now : Nat) :
    queueDeletions jobs due now =
      due.foldl (fun jobs o => jobs.insert (.new o.id o.eventId now)) jobs := by
  unfold queueDeletions
  congr 1
  have hrows : (jobs.rows.map fun j =>
      if (∃ o ∈ due, o.id = j.objectId ∧ o.eventId = j.eventId) ∧ j.state.finished then
        j.reactivated now else j) = jobs.rows := by
    refine (List.map_congr_left fun j hj => if_neg ?_).trans (List.map_id' _)
    rintro ⟨⟨o, ho, hid, -⟩, hfinished⟩
    exact absurd (h o ho j hj hid.symm) (by rw [hfinished]; decide)
  cases jobs
  exact Table.mk.injEq .. |>.mpr hrows

/-- What a batch that succeeds does. -/
structure Database.Batched (db db' : Database) (now n : Nat) (locked : List Uuid) : Prop where
  unfinished : ∀ o ∈ db.due now n locked, ¬ db.Finished o
  sound : db'.Sound
  projects : db'.projects = db.projects
  rows : db'.objects.rows = db.objects.rows.map fun o =>
    if o ∈ db.due now n locked then o.deleting .expired else o
  jobs : db'.jobs = (db.due now n locked).foldl
    (fun jobs o => jobs.insert (.new o.id o.eventId now)) db.jobs

theorem v2Batch_eq_some (h : db.Sound) (hdue : ∀ o ∈ db.due now n locked, ¬ db.Finished o) :
    ∃ db', db.scheduleExpiredRawV2Batch now n locked = some (db', (db.due now n locked).length) ∧
      db.Batched db' now n locked := by
  have hnone : ∀ o ∈ db.due now n locked, ∀ j ∈ db.jobs, j.objectId = o.id →
      j.state.finished = false := by
    intro o ho j hj hid
    by_contra hfinished
    exact hdue o ho ⟨j, hj, hid, Bool.eq_true_of_not_eq_false hfinished⟩
  have hjobs := queueDeletions_eq hnone now
  let due := db.due now n locked
  let objects' : Table RawObject.id := db.objects.updateAll
    (fun o => if o ∈ due then o.deleting .expired else o) fun o => by split <;> rfl
  have hrewrites : Rewrites db.objects objects'
      fun o => if o ∈ due then o.deleting .expired else o := by
    refine ⟨rfl, fun x => by split_ifs <;> rfl, fun x => by split_ifs <;> rfl, ?_⟩
    intro x _ hchecked
    split_ifs with hx
    · exact deleting_checked hchecked (mem_due hx).2.1.1 _
    · exact hchecked
  have hobjects : ∀ o ∈ due, o ∈ db.objects := fun o ho => (mem_due ho).1
  have hsound := hrewrites.sound h (h.jobsSound.foldl_insert h.checked.2.1 hobjects now)
  refine ⟨_, ?_, hdue, hsound, rfl, rfl, rfl⟩
  unfold Database.scheduleExpiredRawV2Batch
  dsimp only
  rw [hjobs]
  exact congrArg (Option.map _) (commit_eq_some.mpr ⟨hsound.checked, rfl⟩)

theorem mem_foldl_insert {jobs : Table JobRow.objectId} {due : List RawObject} {j : JobRow}
    (h : j ∈ jobs) (now : Nat) :
    j ∈ due.foldl (fun jobs o => jobs.insert (.new o.id o.eventId now)) jobs := by
  induction due generalizing jobs with
  | nil => exact h
  | cons o rest ih => exact ih (Table.mem_insert_of_mem h)

/-- A finished job keeps its completion, which the check refuses of a pending one. -/
theorem v2Batch_eq_none (h : db.Sound) (ho : o ∈ db.due now n locked) (hfinished : db.Finished o) :
    db.scheduleExpiredRawV2Batch now n locked = none := by
  obtain ⟨j, hj, hid, hstate⟩ := hfinished
  obtain ⟨x, hx, hxid, hevent⟩ := h.paired j hj
  obtain rfl := Table.eq_of_key_eq hx (mem_due ho).1 (hxid.trans hid)
  have hold : j.completedAt.isSome = true := (h.checked.2.2.1 j hj).1.symm.trans hstate
  have hrow : j.reactivated now ∈ db.jobs.updateAll (fun j =>
      if (∃ o ∈ db.due now n locked, o.id = j.objectId ∧ o.eventId = j.eventId) ∧
          j.state.finished then j.reactivated now
      else j) (fun j => by split <;> rfl) :=
    List.mem_map.mpr ⟨j, hj, if_pos ⟨⟨x, ho, hxid, hevent⟩, hstate⟩⟩
  unfold Database.scheduleExpiredRawV2Batch Database.commit
  dsimp only
  rw [if_neg, Option.map_none]
  intro hchecked
  have hcompletion : (j.reactivated now).CompletionChecked :=
    (hchecked.2.2.1 _ (mem_foldl_insert hrow now)).1
  rw [JobRow.CompletionChecked, JobRow.reactivated, hold] at hcompletion
  cases hcompletion

theorem batched_of_some (h : db.Sound) {k : Nat}
    (hb : db.scheduleExpiredRawV2Batch now n locked = some (db', k)) :
    db.Batched db' now n locked ∧ k = (db.due now n locked).length := by
  have hdue : ∀ o ∈ db.due now n locked, ¬ db.Finished o := by
    intro o ho hfinished
    rw [v2Batch_eq_none h ho hfinished] at hb
    cases hb
  obtain ⟨next, hnext, hbatched⟩ := v2Batch_eq_some h hdue
  obtain ⟨rfl, rfl⟩ := Prod.mk.inj (Option.some.inj (hnext.symm.trans hb))
  exact ⟨hbatched, rfl⟩

end batch

/-! ## Batches one after another -/

section batches
variable {db db' : Database} {now n : Nat} {locked : List Uuid} {o r : RawObject}

/-- The deletion of the object is scheduled. -/
def Database.Scheduled (db : Database) (objectId : Uuid) : Prop :=
  ∃ o ∈ db.objects, o.id = objectId ∧ o.lifecycle = .deleting ∧
    ∃ j ∈ db.jobs, j.objectId = objectId ∧ (j.state = .pending ∨ j.state = .leased)

theorem dueKey_lt_of_le {db : Database} (ho : o ∈ db.objects) (hr : r ∈ db.objects) (hne : o ≠ r)
    (h : o.dueKey ≤ r.dueKey) : o.dueKey < r.dueKey := by
  refine lt_of_le_of_ne h fun heq => hne ?_
  have hid : o.id = r.id := congrArg (fun key => (ofLex key).2) heq
  exact Table.eq_of_key_eq ho hr hid

theorem pairwise_dueQueue (db : Database) (now : Nat) (locked : List Uuid) :
    (db.dueQueue now locked).Pairwise fun o r => o.dueKey < r.dueKey := by
  have hle : (db.dueQueue now locked).Pairwise fun o r => o.dueKey ≤ r.dueKey :=
    pairwise_sortBy (db.objects.rows.filter fun o => o.dueAt now ∧ o.id ∉ locked)
  refine (hle.and (nodup_dueQueue db now locked)).imp_of_mem ?_
  intro o r ho hr hor
  exact dueKey_lt_of_le (mem_dueQueue.mp ho).1 (mem_dueQueue.mp hr).1 hor.2 hor.1

/-- The queue after a batch that succeeds. -/
theorem Database.Batched.dueQueue (h : db.Batched db' now n []) :
    db'.dueQueue now [] = drain db.reconciled n (db.dueQueue now []) := by
  have hq := nodup_dueQueue db now []
  refine eq_of_increasing (pairwise_dueQueue db' now [])
    ((pairwise_dueQueue db now []).sublist (drain_sublist _)) fun x => ?_
  rw [mem_drain_iff hq, mem_dueQueue, mem_dueQueue, ← Table.mem_rows, h.rows, List.mem_map]
  constructor
  · rintro ⟨⟨y, hy, rfl⟩, hdue⟩
    split_ifs at hdue ⊢ with hmem
    · cases hdue.1.1
    · exact ⟨⟨hy, hdue⟩, hmem⟩
  · rintro ⟨⟨hx, hdue⟩, hnot⟩
    exact ⟨⟨x, hx, if_neg hnot⟩, hdue⟩

theorem Database.Batched.reconciled (h : db.Batched db' now n locked) :
    db'.reconciled = db.reconciled := by
  funext o
  rw [Database.reconciled, h.projects, Database.reconciled]

theorem mem_foldl_insert_cases {jobs : Table JobRow.objectId} {due : List RawObject} {j : JobRow}
    (h : j ∈ due.foldl (fun jobs o => jobs.insert (.new o.id o.eventId now)) jobs) :
    j ∈ jobs ∨ j.state = .pending := by
  induction due generalizing jobs with
  | nil => exact .inl h
  | cons o rest ih =>
    rcases ih h with hj | hpending
    · rcases Table.mem_of_mem_insert hj with rfl | hj
      · exact .inr rfl
      · exact .inl hj
    · exact .inr hpending

theorem exists_job_foldl_insert {jobs : Table JobRow.objectId} {due : List RawObject}
    (ho : o ∈ due) (now : Nat) :
    ∃ j ∈ due.foldl (fun jobs o => jobs.insert (.new o.id o.eventId now)) jobs,
      j.objectId = o.id := by
  induction due generalizing jobs with
  | nil => cases ho
  | cons x rest ih =>
    rcases List.mem_cons.mp ho with rfl | ho
    · by_cases hkey : o.id ∈ jobs.rows.map JobRow.objectId
      · obtain ⟨j, hj, hid⟩ := List.mem_map.mp hkey
        exact ⟨j, mem_foldl_insert (Table.mem_insert_of_mem hj) now, hid⟩
      · have hnone : jobs.find o.id = none :=
          Table.find_eq_none.mpr fun j hj hid => hkey (hid ▸ List.mem_map_of_mem hj)
        have hnew : JobRow.new o.id o.eventId now ∈ jobs.insert (.new o.id o.eventId now) :=
          (Table.mem_insert hnone).mpr (.inl rfl)
        exact ⟨_, mem_foldl_insert hnew now, rfl⟩
    · exact ih ho

theorem Database.Batched.finished_iff (h : db.Batched db' now n locked) (o : RawObject) :
    db'.Finished o ↔ db.Finished o := by
  constructor
  · rintro ⟨j, hj, hid, hfinished⟩
    rw [h.jobs] at hj
    rcases mem_foldl_insert_cases hj with hj | hpending
    · exact ⟨j, hj, hid, hfinished⟩
    · rw [hpending] at hfinished
      cases hfinished
  · rintro ⟨j, hj, hid, hfinished⟩
    refine ⟨j, ?_, hid, hfinished⟩
    rw [h.jobs]
    exact mem_foldl_insert hj now

theorem Database.Batched.scheduled (h : db.Batched db' now n locked)
    (ho : o ∈ db.due now n locked) : db'.Scheduled o.id := by
  have hmem : o.deleting .expired ∈ db'.objects := by
    rw [← Table.mem_rows, h.rows]
    exact List.mem_map.mpr ⟨o, (mem_due ho).1, if_pos ho⟩
  have hjob : ∃ j ∈ db'.jobs, j.objectId = o.id := by
    rw [h.jobs]
    exact exists_job_foldl_insert ho now
  obtain ⟨j, hj, hid⟩ := hjob
  refine ⟨_, hmem, rfl, rfl, j, hj, hid, ?_⟩
  have hunfinished : ¬ db'.Finished o := fun hf =>
    h.unfinished o ho ((h.finished_iff o).mp hf)
  cases hstate : j.state with
  | pending => exact .inl rfl
  | leased => exact .inr rfl
  | completed => exact absurd ⟨j, hj, hid, by rw [hstate]; rfl⟩ hunfinished
  | failed => exact absurd ⟨j, hj, hid, by rw [hstate]; rfl⟩ hunfinished
  | dead => exact absurd ⟨j, hj, hid, by rw [hstate]; rfl⟩ hunfinished

theorem Database.Batched.keepsScheduled (h : db.Batched db' now n locked) {objectId : Uuid}
    (hs : db.Scheduled objectId) : db'.Scheduled objectId := by
  obtain ⟨o, ho, hid, hdeleting, j, hj, hjob, hstate⟩ := hs
  have hnot : o ∉ db.due now n locked := by
    intro hdue
    have hstored := (mem_due hdue).2.1.1
    rw [hdeleting] at hstored
    cases hstored
  refine ⟨o, ?_, hid, hdeleting, j, ?_, hjob, hstate⟩
  · rw [← Table.mem_rows, h.rows]
    exact List.mem_map.mpr ⟨o, ho, if_neg hnot⟩
  · rw [h.jobs]
    exact mem_foldl_insert hj now

/-- Induction on the batches, which succeed as long as no due object has a finished job. -/
theorem v2Batches_eq_some (h : db.Sound)
    (hdue : ∀ o ∈ db.dueQueue now [], db.reconciled o = true → ¬ db.Finished o) (k : Nat) :
    ∃ db', db.v2Batches now k = some db' ∧ db'.Sound ∧ db'.reconciled = db.reconciled ∧
      db'.dueQueue now [] = drains db.reconciled retentionBatchSize k (db.dueQueue now []) ∧
      (∀ objectId, db.Scheduled objectId → db'.Scheduled objectId) ∧
      ∀ o ∈ db.dueQueue now [], db.reconciled o = true →
        db'.Scheduled o.id ∨ o ∈ db'.dueQueue now [] := by
  induction k generalizing db with
  | zero => exact ⟨db, rfl, h, rfl, rfl, fun _ hs => hs, fun o ho _ => .inr ho⟩
  | succ k ih =>
    have hunfinished : ∀ o ∈ db.due now retentionBatchSize [], ¬ db.Finished o := fun o ho =>
      hdue o (List.mem_of_mem_take (List.mem_of_mem_filter ho)) (mem_due ho).2.2.2
    obtain ⟨next, hnext, hbatched⟩ := v2Batch_eq_some h hunfinished
    have hqueue := hbatched.dueQueue
    have hnextDue : ∀ o ∈ next.dueQueue now [], next.reconciled o = true → ¬ next.Finished o := by
      intro o ho hready
      rw [hbatched.finished_iff]
      rw [hbatched.reconciled] at hready
      rw [hqueue] at ho
      exact hdue o ((drain_sublist _).subset ho) hready
    obtain ⟨db', hdb', hsound, hreconciled, hdrains, hkept, hall⟩ := ih hbatched.sound hnextDue
    refine ⟨db', ?_, hsound, hreconciled.trans hbatched.reconciled, ?_, ?_, ?_⟩
    · rw [Database.v2Batches, hnext]
      exact hdb'
    · rw [hdrains, hqueue, hbatched.reconciled]
      rfl
    · exact fun objectId hs => hkept objectId (hbatched.keepsScheduled hs)
    · intro o ho hready
      by_cases htaken : o ∈ db.due now retentionBatchSize []
      · exact .inl (hkept o.id (hbatched.scheduled htaken))
      · apply hall o
        · rw [hqueue]
          exact (mem_drain_iff (nodup_dueQueue db now [])).mpr ⟨ho, htaken⟩
        · rwa [hbatched.reconciled]

/-- An object that batches never schedule: its job is done, or enough others stand before it. -/
def Database.Stuck (db : Database) (now : Nat) (o : RawObject) : Prop :=
  o ∈ db.dueQueue now [] ∧ (db.Finished o ∨ ∃ s t, db.dueQueue now [] = s ++ o :: t ∧
    retentionBatchSize ≤ blocked db.reconciled s)

/-- Induction on the batches, as long as they succeed. -/
theorem Database.Stuck.batches (hstuck : db.Stuck now o) (h : db.Sound) {k : Nat}
    (hk : db.v2Batches now k = some db') : o ∈ db'.dueQueue now [] := by
  induction k generalizing db with
  | zero =>
    cases hk
    exact hstuck.1
  | succ k ih =>
    obtain ⟨⟨next, count⟩, hnext, hrest⟩ := Option.bind_eq_some_iff.mp hk
    obtain ⟨hbatched, -⟩ := batched_of_some h hnext
    refine ih ?_ hbatched.sound hrest
    obtain ⟨ho, hfinished | ⟨s, t, hq, hblocked⟩⟩ := hstuck
    · refine ⟨?_, .inl ((hbatched.finished_iff o).mpr hfinished)⟩
      rw [hbatched.dueQueue]
      exact (mem_drain_iff (nodup_dueQueue db now [])).mpr
        ⟨ho, fun htaken => hbatched.unfinished o htaken hfinished⟩
    · have hlong : retentionBatchSize ≤ s.length := Nat.le_trans hblocked List.countP_le_length
      have hqueue : next.dueQueue now [] =
          drain db.reconciled retentionBatchSize s ++ o :: t := by
        rw [hbatched.dueQueue, hq, drain_append hlong]
      refine ⟨?_, .inr ⟨_, t, hqueue, ?_⟩⟩
      · rw [hqueue]
        exact List.mem_append_right _ List.mem_cons_self
      · rw [hbatched.reconciled, blocked_drain]
        exact hblocked

theorem not_scheduled_of_mem_dueQueue (h : o ∈ db.dueQueue now []) : ¬ db.Scheduled o.id := by
  rintro ⟨x, hx, hid, hdeleting, -⟩
  obtain ⟨ho, hdue, -⟩ := mem_dueQueue.mp h
  obtain rfl := Table.eq_of_key_eq hx ho hid
  rw [hdue.1] at hdeleting
  cases hdeleting

/-- The due objects of projects that are not reconciled, before an object. -/
def Database.waitingBefore (db : Database) (now : Nat) (o : RawObject) : List RawObject :=
  db.objects.rows.filter fun u => u.dueAt now ∧ db.reconciled u = false ∧ u.dueKey < o.dueKey

/-- The entries of the queue before an object are those with a smaller key. -/
theorem blocked_eq_waitingBefore {s t : List RawObject} (hq : db.dueQueue now [] = s ++ o :: t) :
    blocked db.reconciled s = (db.waitingBefore now o).length := by
  have hpairwise := pairwise_dueQueue db now []
  rw [hq] at hpairwise
  obtain ⟨-, hrest, hbefore⟩ := List.pairwise_append.mp hpairwise
  let before : RawObject → Bool := fun u => !db.reconciled u && decide (u.dueKey < o.dueKey)
  have hs : s.countP before = blocked db.reconciled s := by
    refine List.countP_congr fun u hu => ?_
    have hlt := hbefore u hu o List.mem_cons_self
    simp [before, hlt]
  have ht : (o :: t).countP before = 0 := by
    rw [List.countP_eq_zero]
    intro u hu
    have hnot : ¬ u.dueKey < o.dueKey := by
      rcases List.mem_cons.mp hu with rfl | hu
      · exact lt_irrefl _
      · exact lt_asymm ((List.pairwise_cons.mp hrest).1 u hu)
    simp [before, hnot]
  have hall : (db.dueQueue now []).countP before = (db.waitingBefore now o).length := by
    unfold Database.dueQueue sortBy
    rw [(List.perm_insertionSort _ _).countP_eq, List.countP_filter,
      List.countP_eq_length_filter, Database.waitingBefore]
    refine congrArg List.length (List.filter_congr fun u _ => ?_)
    simp [before, Bool.and_comm]
  rw [← hs, ← hall, hq, List.countP_append, ht, Nat.add_zero]

/-- The batches get to the object: its job is not done, and the objects of other projects
before it do not fill a batch. -/
def Database.Schedulable (db : Database) (now : Nat) (o : RawObject) : Prop :=
  ¬ db.Finished o ∧ (db.waitingBefore now o).length < retentionBatchSize

end batches

/-! ## Reachable states -/

section runs

/-- Scheduling goes on: no statement of a scheduler fails, whatever rows are locked, and batches
alone come to an end with every due object of a reconciled project scheduled. -/
structure State.Schedules (s : State) : Prop where
  v2 : ∀ locked, (s.db.scheduleExpiredRawV2Batch s.now retentionBatchSize locked).isSome
  legacy : ∀ locked, (s.db.scheduleExpiredRawLegacy s.now locked).isSome
  ends : ∃ k db', s.db.v2Batches s.now k = some db' ∧
    (db'.scheduleExpiredRawV2Batch s.now retentionBatchSize []).map Prod.snd = some 0 ∧
    ∀ o ∈ s.db.objects, o.dueAt s.now → s.db.reconciled o = true → db'.Scheduled o.id

theorem schedules_iff {s : State} (h : s.db.Sound) :
    s.Schedules ↔ ∀ o ∈ s.db.objects, o.dueAt s.now → s.db.reconciled o = true →
      s.db.Schedulable s.now o := by
  constructor
  · intro hs o ho hdue hready
    have hqueue : o ∈ s.db.dueQueue s.now [] := mem_dueQueue.mpr ⟨ho, hdue, List.not_mem_nil⟩
    obtain ⟨k, db', hk, -, hall⟩ := hs.ends
    have hfree : ¬ s.db.Stuck s.now o := fun hstuck =>
      not_scheduled_of_mem_dueQueue (hstuck.batches h hk) (hall o ho hdue hready)
    refine ⟨fun hfinished => hfree ⟨hqueue, .inl hfinished⟩, ?_⟩
    obtain ⟨front, rest, hsplit⟩ := List.append_of_mem hqueue
    by_contra hlong
    rw [← blocked_eq_waitingBefore hsplit] at hlong
    exact hfree ⟨hqueue, .inr ⟨front, rest, hsplit, by omega⟩⟩
  · intro hall
    have hunfinished : ∀ locked, ∀ o ∈ s.db.due s.now retentionBatchSize locked,
        ¬ s.db.Finished o := fun locked o ho =>
      (hall o (mem_due ho).1 (mem_due ho).2.1 (mem_due ho).2.2.2).1
    refine ⟨fun locked => ?_, fun locked => ?_, ?_⟩
    · obtain ⟨db', hdb', -⟩ := v2Batch_eq_some h (hunfinished locked)
      exact Option.isSome_of_mem hdb'
    · obtain ⟨db', hdb', -⟩ := scheduleExpiredRawLegacy_sound h s.now locked
      exact Option.isSome_of_mem hdb'
    · have hqueue : ∀ o ∈ s.db.dueQueue s.now [], s.db.reconciled o = true →
          s.db.Schedulable s.now o := fun o ho hready =>
        hall o (mem_dueQueue.mp ho).1 (mem_dueQueue.mp ho).2.1 hready
      let k := (s.db.dueQueue s.now []).length
      obtain ⟨db', hdb', hsound, hreconciled, hdrains, -, hscheduled⟩ :=
        v2Batches_eq_some h (fun o ho hready => (hqueue o ho hready).1) k
      have hgone : ∀ o ∈ s.db.dueQueue s.now [], s.db.reconciled o = true →
          o ∉ db'.dueQueue s.now [] := by
        intro o ho hready
        obtain ⟨front, rest, hsplit⟩ := List.append_of_mem ho
        have hfew := (hqueue o ho hready).2
        rw [← blocked_eq_waitingBefore hsplit] at hfew
        have hnodup := nodup_dueQueue s.db s.now []
        have hlength : front.length < k := by
          simp only [k, hsplit, List.length_append, List.length_cons]
          omega
        rw [hdrains, hsplit]
        rw [hsplit] at hnodup
        exact not_mem_drains hnodup hready hfew hlength
      have hempty : db'.due s.now retentionBatchSize [] = [] := by
        refine List.eq_nil_iff_forall_not_mem.mpr fun o ho => ?_
        have hleft : o ∈ db'.dueQueue s.now [] :=
          List.mem_of_mem_take (List.mem_of_mem_filter ho)
        have hready : s.db.reconciled o = true := hreconciled ▸ (mem_due ho).2.2.2
        have hold : o ∈ s.db.dueQueue s.now [] := by
          rw [hdrains] at hleft
          exact (drains_sublist k _).subset hleft
        exact hgone o hold hready hleft
      refine ⟨k, db', hdb', ?_, fun o ho hdue hready => ?_⟩
      · have hfree : ∀ o ∈ db'.due s.now retentionBatchSize [], ¬ db'.Finished o := by
          rw [hempty]
          exact fun o ho => absurd ho List.not_mem_nil
        obtain ⟨last, hlast, -⟩ := v2Batch_eq_some hsound hfree
        rw [hlast, hempty]
        rfl
      · have ho' : o ∈ s.db.dueQueue s.now [] := mem_dueQueue.mpr ⟨ho, hdue, List.not_mem_nil⟩
        exact (hscheduled o ho' hready).resolve_right (hgone o ho' hready)

/-! ### Every run pairs the jobs with their objects -/

variable {db db' : Database} {now : Nat}

theorem accept_paired (hp : db.Paired) {objectId eventId projectId : Uuid} {c : RetentionClass}
    (h : db.accept objectId eventId projectId c now = some db') : db'.Paired := by
  obtain ⟨p, -, h⟩ := Option.bind_eq_some_iff.mp h
  split_ifs at h with hfree
  obtain ⟨-, hdb⟩ := commit_eq_some.mp h
  have hnone := Option.not_isSome_iff_eq_none.mp hfree
  have hkeeps : db.Keeps db' := by
    rw [hdb]
    exact .of_objects (fun o ho => ⟨o, (Table.mem_insert hnone).mpr (.inr ho), rfl, rfl⟩) rfl
  exact hkeeps.paired hp

theorem publish_paired (hp : db.Paired) {objectId : Uuid} {c : RetentionClass}
    {aged : Option Uuid} (h : db.publish objectId c aged now = some db') : db'.Paired := by
  cases aged with
  | none =>
    cases h
    exact (keeps_setRetentionClass objectId c).paired hp
  | some aged =>
    obtain ⟨next, hnext, rfl⟩ := Option.map_eq_some_iff.mp h
    exact (keeps_setRetentionClass objectId c).paired
      ((keeps_enqueueRawDeletion hnext).paired hp)

theorem reconcile_paired (hp : db.Paired) {projectId : Uuid}
    (h : db.reconcile projectId now = some db') : db'.Paired := by
  obtain ⟨p, -, h⟩ := Option.bind_eq_some_iff.mp h
  have hdb := Option.some.inj h
  have hkeeps : db.Keeps db' := by
    rw [← hdb]
    refine .of_objects (fun o ho => ⟨_, List.mem_map_of_mem ho, ?_, ?_⟩) rfl
    all_goals split_ifs <;> rfl
  exact hkeeps.paired hp

/-- The lease and the completion that both ends of `delete_raw` write. -/
theorem completed_eventId {j j₁ j₂ : JobRow} {h : Holder} (hlock : j.lockLease h now = some j₁)
    (hcomplete : j₁.completeJob h now = some j₂) : j₂.eventId = j.eventId :=
  (completeJob_eventId hcomplete).trans (lockLease_eventId hlock)

theorem restore_paired (hp : db.Paired) {objectId : Uuid} {h : Holder}
    (hs : db.restore objectId h now = some db') : db'.Paired := by
  obtain ⟨o, -, hs⟩ := Option.bind_eq_some_iff.mp hs
  obtain ⟨j, hj, hs⟩ := Option.bind_eq_some_iff.mp hs
  obtain ⟨j₁, hlock, hs⟩ := Option.bind_eq_some_iff.mp hs
  obtain ⟨j₂, hcomplete, hs⟩ := Option.bind_eq_some_iff.mp hs
  split_ifs at hs
  have hset : (db.setObject objectId .stored none .standard).Paired :=
    (keeps_setObject objectId .stored none .standard).paired hp
  have hkeeps : (db.setObject objectId .stored none .standard).Keeps db' :=
    keeps_setJob hj (completed_eventId hlock hcomplete) hs
  exact hkeeps.paired hset

theorem finishRaw_paired (hp : db.Paired) {objectId : Uuid} {h : Holder}
    (hs : db.finishRaw objectId h now = some db') : db'.Paired := by
  obtain ⟨o, -, hs⟩ := Option.bind_eq_some_iff.mp hs
  obtain ⟨j, hj, hs⟩ := Option.bind_eq_some_iff.mp hs
  obtain ⟨j₁, hlock, hs⟩ := Option.bind_eq_some_iff.mp hs
  obtain ⟨j₂, hcomplete, hs⟩ := Option.bind_eq_some_iff.mp hs
  have hevent := completed_eventId hlock hcomplete
  generalize (if o.retentionClass = .expired then RetentionClass.expired else .discarded) = c at hs
  split_ifs at hs with hdeleting
  · have hset : (db.setObject objectId .discarded (some now) c).Paired :=
      (keeps_setObject objectId .discarded (some now) c).paired hp
    have hkeeps : (db.setObject objectId .discarded (some now) c).Keeps db' :=
      keeps_setJob hj hevent hs
    exact hkeeps.paired hset
  · exact (keeps_setJob hj hevent hs).paired hp

theorem stepDatabase_sound (h : db.Sound) {a : Action} (hs : stepDatabase now db a = some db') :
    db'.Paired := by
  have hp := h.paired
  cases a with
  | tick seconds =>
    cases hs
    exact hp
  | createProject projectId days =>
    cases hs
    exact hp
  | setRetentionDays projectId days =>
    cases hs
    exact hp
  | accept objectId eventId projectId c => exact accept_paired hp hs
  | publish objectId c aged => exact publish_paired hp hs
  | expireLegacy locked =>
    obtain ⟨next, hnext, hsound⟩ := scheduleExpiredRawLegacy_sound h now locked
    obtain rfl := Option.some.inj (hnext.symm.trans hs)
    exact hsound.paired
  | expireV2 locked =>
    obtain ⟨⟨next, count⟩, hnext, rfl⟩ := Option.map_eq_some_iff.mp hs
    exact (batched_of_some h hnext).1.sound.paired
  | reconcile projectId => exact reconcile_paired hp hs
  | claim objectId holder =>
    exact (keeps_updateJob (fun _ _ hj => claim_eventId hj) hs).paired hp
  | heartbeat objectId holder =>
    exact (keeps_updateJob (fun _ _ hj => heartbeat_eventId hj) hs).paired hp
  | releaseJob objectId holder seconds resource dependency code =>
    exact (keeps_updateJob (fun _ _ hj => releaseJob_eventId hj) hs).paired hp
  | finishFailure objectId holder quarantine resource code =>
    refine (keeps_updateJob (fun j j' hj => ?_) hs).paired hp
    obtain ⟨j₁, hlock, hterminal⟩ := Option.bind_eq_some_iff.mp hj
    exact (terminalJob_eventId hterminal).trans (lockLease_eventId hlock)
  | restore objectId holder => exact restore_paired hp hs
  | finishRaw objectId holder => exact finishRaw_paired hp hs

theorem sound_of_reachable {init s : State} (hinit : init.Initial)
    (h : Reachable step (fun _ => True) init s) : s.db.Sound := by
  refine h.invariant (fun s => s.db.Sound) ?_ ?_
  · refine ⟨hinit.2.1, fun j hj => ?_⟩
    rw [hinit.1] at hj
    exact absurd hj (Table.not_mem_empty j)
  · intro s a s' _ hsound hs _
    obtain ⟨next, hnext, hs⟩ := Option.bind_eq_some_iff.mp hs
    obtain ⟨db', hcommit, hs⟩ := Option.bind_eq_some_iff.mp hs
    cases hs
    obtain ⟨hchecked, rfl⟩ := commit_eq_some.mp hcommit
    exact ⟨hchecked, stepDatabase_sound hsound hnext⟩

/-- In every state of a run the scheduling goes on just when no due object of a reconciled
project has a finished job or a whole batch of other projects' objects before it. -/
theorem schedules_iff_of_reachable {init s : State} (hinit : init.Initial)
    (h : Reachable step (fun _ => True) init s) :
    s.Schedules ↔ ∀ o ∈ s.db.objects, o.dueAt s.now → s.db.reconciled o = true →
      ¬ s.db.Finished o ∧ (s.db.waitingBefore s.now o).length < retentionBatchSize :=
  schedules_iff (sound_of_reachable hinit h)

/-! ### A restored object -/

def emptyState : State := ⟨0, ⟨.empty, .empty, .empty⟩⟩

theorem emptyState_initial : emptyState.Initial := ⟨rfl, by decide, nofun⟩

/-- Two crashes, the second of which ages out the object of the first. -/
def agedOut : List Action :=
  [.createProject 1 30, .accept 2 3 1 .standard, .accept 4 5 1 .standard,
    .publish 4 .recent (some 2)]

/-- The deletion goes on. -/
def deleted : List Action :=
  agedOut ++ [.claim 2 ⟨7, 8⟩, .finishRaw 2 ⟨7, 8⟩, .tick (31 * daySeconds)]

/-- A worker for which enforcement is off undoes the deletion. -/
def restored : List Action :=
  agedOut ++ [.claim 2 ⟨7, 8⟩, .restore 2 ⟨7, 8⟩, .tick (31 * daySeconds)]

theorem schedules_iff_of_reachable_deleted :
    ∃ s, run step (fun _ => True) emptyState deleted = some s ∧ s.Schedules ∧
      (s.db.dueQueue s.now []).map RawObject.id = [4] := by
  have hrun : (run step (fun _ => True) emptyState deleted).isSome := by decide +kernel
  obtain ⟨s, hs⟩ := Option.isSome_iff_exists.mp hrun
  have hreach := Reachable.of_run (.init trivial) hs
  have hrows : ∀ u ∈ run step (fun _ => True) emptyState deleted,
      (u.db.dueQueue u.now []).map RawObject.id = [4] ∧
      ∀ o ∈ u.db.objects.rows, o.dueAt u.now →
        (∀ j ∈ u.db.jobs.rows, j.objectId ≠ o.id) ∧
        (u.db.waitingBefore u.now o).length = 0 := by
    decide +kernel
  obtain ⟨hqueue, hrows⟩ := hrows s hs
  refine ⟨s, hs, ?_, hqueue⟩
  rw [schedules_iff_of_reachable emptyState_initial hreach]
  intro o ho hdue _
  obtain ⟨hjobs, hlength⟩ := hrows o ho hdue
  refine ⟨fun ⟨j, hj, hid, _⟩ => hjobs j hj hid, ?_⟩
  rw [hlength]
  exact Nat.succ_pos _

/-- The finished job of the restored object refuses the batch, in which another object is due. -/
theorem not_schedules_restored :
    ¬ ∀ init s, init.Initial → Reachable step (fun _ => True) init s → s.Schedules := by
  intro hall
  have hrun : (run step (fun _ => True) emptyState restored).isSome := by decide +kernel
  obtain ⟨s, hs⟩ := Option.isSome_iff_exists.mp hrun
  have hnone : ∀ u ∈ run step (fun _ => True) emptyState restored,
      (u.db.scheduleExpiredRawV2Batch u.now retentionBatchSize []).isSome = false := by
    decide +kernel
  have hschedules := hall emptyState s emptyState_initial (Reachable.of_run (.init trivial) hs)
  have hsome := hschedules.v2 []
  rw [hnone s hs] at hsome
  cases hsome

end runs
end FaultLane.RawScheduling
