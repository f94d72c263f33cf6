import FaultLane.SymbolUploadSessions

set_option autoImplicit false

/-!
# Index jobs find their rows

Along the runs that leave the rows of running index jobs alone, a worker that holds the
lease of such a job can publish its artifact, publish its failure or fail it.
-/
namespace FaultLane.SymbolUpload
open KeyedTable JobQueue TransitionSystem

section
variable {s : State}

/-- What the holder of an index job can commit, with fresh identifiers where it inserts. -/
structure State.CanFinish (s : State) (token : Uuid) (a : IndexAttempt) : Prop where
  failure : ∀ quarantine resource code, (finishFailure s token quarantine resource code).isSome
  publishFailure : ∀ artifact verified code quarantine, a.step = .loaded artifact verified →
    (publishArtifactFailure s token code quarantine).isSome
  publish : ∀ artifact objectId imageId, a.step = .loaded artifact true →
    (∀ o ∈ s.uploads.objects, o.id ≠ objectId) → s.uploads.images.find imageId = none →
    (publishArtifact s token objectId imageId).isSome

structure State.StaysInStep (s : State) : Prop where
  single : ∀ t ∈ s.uploads.sessions, ∀ t' ∈ s.uploads.sessions, t.isOpen → t'.isOpen →
    t.manifestId = t'.manifestId → t = t'
  carried : ∀ t ∈ s.uploads.sessions, t.isOpen → ∃ m ∈ s.uploads.manifests,
    m.id = t.manifestId ∧ m.projectId = t.projectId ∧ m.identity = t.identity
  processing : ∀ t ∈ s.uploads.sessions, t.state = .processing → ∃ m ∈ s.uploads.manifests,
    m.id = t.manifestId ∧ m.state = .processing
  finishes : ∀ token a j j', s.attempt token = some (a, j) → j.lockLease a.holder s.now = some j' →
    (∃ t ∈ s.uploads.sessions, t.id = a.uploadId ∧ t.state = .processing) → s.CanFinish token a

/-! ## A publication -/

theorem upsertObject_isSome {u : Uploads} {artifact : Session} {id : Uuid}
    (hkey : ∀ o ∈ u.objects, o.objectKey ≠ artifact.objectKey) (hid : ∀ o ∈ u.objects, o.id ≠ id) :
    ∃ v o, u.upsertObject artifact id = some (v, o) ∧ v.images = u.images := by
  unfold Uploads.upsertObject
  cases u.objects.find artifact.identity.checksum with
  | some o => exact ⟨u, o, rfl, rfl⟩
  | none =>
    have hfresh : ¬ u.objects.rows.any fun x => x.objectKey = artifact.objectKey ∨ x.id = id := by
      intro hany
      obtain ⟨o, ho, hp⟩ := List.any_eq_true.mp hany
      rcases of_decide_eq_true hp with hk | hi
      · exact hkey o ho hk
      · exact hid o ho hi
    exact ⟨_, _, if_neg hfresh, rfl⟩

theorem upsertImage_isSome {u : Uploads} {artifact : Session} {o : ArtifactObject} {id : Uuid}
    (hid : u.images.find id = none) : ∃ v image, u.upsertImage artifact o id = some (v, image) := by
  unfold Uploads.upsertImage
  dsimp only
  split
  · exact ⟨_, _, rfl⟩
  · rw [hid]
    exact ⟨_, _, rfl⟩

theorem publishArtifact_isSome {u : Uploads} (h : u.InStep) (hnamed : ∀ o ∈ u.objects, u.Names o)
    {t artifact : Session} (ht : t ∈ u.sessions) (hs : t.state = .processing)
    (hsame : t.SameUpload artifact) {objectId imageId : Uuid}
    (hobject : ∀ o ∈ u.objects, o.id ≠ objectId) (himage : u.images.find imageId = none) :
    (u.publishArtifact artifact objectId imageId).isSome := by
  have hkey : ∀ o ∈ u.objects, o.objectKey ≠ artifact.objectKey := by
    intro o ho heq
    obtain ⟨x, hx, hxkey, hcompleted, -⟩ := hnamed o ho
    obtain rfl := IndexedTable.eq_of_key_eq hx ht ((hxkey.trans heq).trans hsame.1.symm)
    rw [hs] at hcompleted
    cases hcompleted
  obtain ⟨v, o, hv, hvi⟩ := upsertObject_isSome hkey hobject
  have himage' : v.images.find imageId = none := hvi ▸ himage
  obtain ⟨w, image, hw⟩ : ∃ w image, v.upsertImage artifact o imageId = some (w, image) :=
    upsertImage_isSome himage'
  obtain ⟨-, -, hvs, hvm, -⟩ := upsertObject_eq_some hv
  obtain ⟨hws, hwm, -⟩ := upsertImage_eq_some hw
  have hsessions := hws.trans hvs
  have hend := (h.congr hsessions (hwm.trans hvm)).endArtifact_isSome (hsessions ▸ ht) hs hsame
    .completed .available (some image)
  obtain ⟨x, hx⟩ := Option.isSome_iff_exists.mp hend
  unfold Uploads.publishArtifact
  rw [hv, Option.bind_eq_bind, Option.bind_some]
  dsimp only
  rw [hw, Option.bind_eq_bind, Option.bind_some]
  dsimp only
  rw [hx]
  rfl

/-! ## The lease -/

theorem lockLease_holds {j j' : Job} {h : Holder} {now : Nat} (hl : j.lockLease h now = some j') :
    j'.holds h := ((Job.lockLease_renews hl).holds h).mpr rfl

theorem completeJob_isSome {j : Job} {h : Holder} (hh : j.holds h) (code : Option String) :
    (j.completeJob h code).isSome := by
  rw [Job.completeJob, if_pos hh]
  rfl

theorem terminalJob_isSome {j : Job} {h : Holder} (hh : j.holds h) (quarantine resource : Bool)
    (code : String) : (j.terminalJob h quarantine resource code).isSome := by
  rw [Job.terminalJob, if_pos hh]
  rfl

theorem State.Known.canFinish (hk : s.Known) (h : s.uploads.InStep) {token : Uuid}
    {a : IndexAttempt} {j j' : Job} (ht : s.attempt token = some (a, j))
    (hl : j.lockLease a.holder s.now = some j') {t : Session} (hmem : t ∈ s.uploads.sessions)
    (hid : t.id = a.uploadId) (hs : t.state = .processing) : s.CanFinish token a := by
  have ha := (Table.find_eq_some.mp (attempt_eq_some ht).1).1
  have hproject : t.projectId = a.projectId := by
    obtain ⟨x, hx, hxid, hxp⟩ := hk.claimed a ha
    obtain rfl := IndexedTable.eq_of_key_eq hx hmem (hxid.trans hid.symm)
    exact hxp
  have hloaded : ∀ artifact verified, a.step = .loaded artifact verified → t.SameUpload artifact := by
    intro artifact verified hstep
    obtain ⟨⟨x, hx, hsame⟩, haid, -⟩ := hk.attempts a ha artifact (by rw [hstep]; rfl)
    obtain rfl := IndexedTable.eq_of_key_eq hx hmem (hsame.1.trans (haid.trans hid.symm))
    exact hsame
  refine ⟨fun quarantine resource code => ?_, fun artifact verified code quarantine hstep => ?_,
    fun artifact objectId imageId hstep hobject himage => ?_⟩
  · obtain ⟨u, hu⟩ := Option.isSome_iff_exists.mp (h.failArtifact_isSome hmem hs code)
    obtain ⟨j'', hj⟩ := Option.isSome_iff_exists.mp
      (terminalJob_isSome (lockLease_holds hl) quarantine resource code)
    rw [hproject, hid] at hu
    simp only [finishFailure, ht, Option.bind_eq_bind, Option.bind_some, hl, hu, hj,
      Option.isSome_some]
  · obtain ⟨u, hu⟩ := Option.isSome_iff_exists.mp (h.endArtifact_isSome hmem hs
      (hloaded artifact verified hstep) (.failed code)
      (if quarantine then .quarantined code else .mismatch) none)
    obtain ⟨j'', hj⟩ := Option.isSome_iff_exists.mp
      (completeJob_isSome (lockLease_holds hl) (some code))
    simp only [publishArtifactFailure, Uploads.publishArtifactFailure, ht, Option.bind_eq_bind,
      Option.bind_some, hl, hstep, hu, hj, Option.isSome_some]
  · obtain ⟨⟨u, key⟩, hu⟩ := Option.isSome_iff_exists.mp (publishArtifact_isSome h hk.named hmem hs
      (hloaded artifact true hstep) hobject himage)
    obtain ⟨j'', hj⟩ := Option.isSome_iff_exists.mp (completeJob_isSome (lockLease_holds hl) none)
    simp only [publishArtifact, ht, Option.bind_eq_bind, Option.bind_some, hl, hstep, hu, hj,
      Option.isSome_some]

/-! ## Every run -/

theorem inStep_init : State.init.uploads.InStep := ⟨nofun, nofun⟩

theorem inStep_of_reachable
    (h : Reachable (restrict step LeavesIndexing) (fun _ => True) .init s) :
    s.Known ∧ s.uploads.InStep :=
  h.invariant (fun s => s.Known ∧ s.uploads.InStep) ⟨known_init, inStep_init⟩
    fun _ _ _ _ hi hs _ =>
      have hstep := restrict_eq_some.mp hs
      ⟨(hi.1.steps (steps_step hstep.2)).2, hi.2.step hi.1 hstep.1 hstep.2⟩

theorem staysInStep_of_reachable
    (h : Reachable (restrict step LeavesIndexing) (fun _ => True) .init s) : s.StaysInStep where
  single t ht t' ht' := s.uploads.sessions.indexed t ht t' ht'
  carried := (inStep_of_reachable h).2.carried
  processing t ht hs := by
    have hin := (inStep_of_reachable h).2
    obtain ⟨m, hm, hid, -⟩ := hin.carried t ht (Session.isOpen_of_eq hs rfl)
    exact ⟨m, hm, hid, hin.processing t ht hs m hm hid⟩
  finishes token a j j' ha hl hp := by
    obtain ⟨t, ht, hid, hs⟩ := hp
    obtain ⟨hk, hin⟩ := inStep_of_reachable h
    exact hk.canFinish hin ha hl ht hid hs

end

/-! ## One artifact under two paths -/

section sample

def sampleIdentity (checksum : UInt8) : ArtifactIdentity :=
  ⟨[checksum], 1, .pdb, "game.pdb", "x86_64", "DEBUG-A", none⟩

/-- A negotiation that ends with a new session. -/
def uploadRun (id release : Uuid) (checksum : UInt8) (manifestId upload : Uuid) : List Action :=
  [.startNegotiation id ⟨1, release, "game.pdb", sampleIdentity checksum⟩,
    .negotiate id manifestId none, .negotiate id 0 none, .negotiate id 0 none,
    .negotiate id 0 none, .negotiate id 0 none, .negotiate id 0 none, .negotiate id 0 none,
    .negotiate id upload none]

def completeRun (id upload : Uuid) (checksum : UInt8) : List Action :=
  .startCompletion id 1 upload :: List.replicate 5 (.complete id [checksum] 1)

def indexRun (upload token objectId imageId : Uuid) : List Action :=
  [.claim upload ⟨9, token⟩, .loadArtifact token, .verifyArtifact token,
    .publishArtifact token objectId imageId]

/-- Two releases upload one artifact, and one of them is indexed. -/
def twoReleases : List Action :=
  uploadRun 1 1 7 11 21 ++ uploadRun 2 2 7 12 22 ++ completeRun 1 21 7 ++ completeRun 2 22 7 ++
    indexRun 21 31 41 51

def secondNegotiation : List Action :=
  [.startNegotiation 3 ⟨1, 2, "game.pdb", sampleIdentity 7⟩, .negotiate 3 13 none,
    .negotiate 3 0 (some 51), .negotiate 3 0 none]

theorem staysInStep_twoReleases :
    ∃ s, Reachable (restrict step LeavesIndexing) (fun _ => True) .init s ∧ s.StaysInStep ∧
      ∃ t ∈ s.uploads.sessions, t.state = .processing := by
  have hrun : (run (restrict step LeavesIndexing) (fun _ => True) .init twoReleases).isSome := by
    decide +kernel
  obtain ⟨s, hs⟩ := Option.isSome_iff_exists.mp hrun
  have hreach := Reachable.of_run (.init trivial) hs
  have hopen : ∀ u ∈ run (restrict step LeavesIndexing) (fun _ => True) .init twoReleases,
      ∃ t ∈ u.uploads.sessions.table.rows, t.state = .processing := by
    decide +kernel
  exact ⟨s, hreach, staysInStep_of_reachable hreach, hopen s hs⟩

/-- A negotiation of the other release finds the image and marks its row, whose session is
still being indexed. -/
theorem not_staysInStep_of_mark :
    ¬ ∀ s, Reachable step (fun _ => True) .init s → s.StaysInStep := by
  intro hstays
  have hrun : (run step (fun _ => True) .init (twoReleases ++ secondNegotiation)).isSome := by
    decide +kernel
  obtain ⟨s, hs⟩ := Option.isSome_iff_exists.mp hrun
  have hrows : ∀ u ∈ run step (fun _ => True) .init (twoReleases ++ secondNegotiation),
      ∃ t ∈ u.uploads.sessions.table.rows, t.state = .processing ∧
        ∀ m ∈ u.uploads.manifests.rows, m.id = t.manifestId → m.state = .available := by
    decide +kernel
  obtain ⟨t, ht, hprocessing, hmanifest⟩ := hrows s hs
  obtain ⟨m, hm, hid, hstate⟩ :=
    (hstays s (Reachable.of_run (.init trivial) hs)).processing t ht hprocessing
  rw [hmanifest m hm hid] at hstate
  cases hstate

end sample
end FaultLane.SymbolUpload
