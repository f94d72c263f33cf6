import FaultLane.SymbolUploadIndexing

set_option autoImplicit false

/-!
# Uploading an artifact again

The statements of one negotiated artifact to their end, from any state of a run, and the rows
from which an artifact can be negotiated.
-/
namespace FaultLane.SymbolUpload
open KeyedTable JobQueue TransitionSystem

/-! ## One negotiated artifact -/

inductive Negotiated where
  | alreadyPresent
  | identityMismatch
  | uploadRequired
  deriving DecidableEq, Repr

/-- What is answered when a statement is the last one. -/
def NegotiationStep.ending : NegotiationStep → Option Negotiated
  | .markAvailable _ _ => some .alreadyPresent
  | .markMismatch _ => some .identityMismatch
  | .loadActive _ | .create _ => some .uploadRequired
  | _ => none

/-- The identifiers of new rows, and the image that `find_matching_debug_image` selects. -/
structure Draw where
  manifestId : Uuid
  uploadId : Uuid
  image : Option Uuid

def Draw.newId (d : Draw) : NegotiationStep → Uuid
  | .create _ => d.uploadId
  | _ => d.manifestId

/-- The identifiers are new, and the image is one that the select can find. -/
structure Draw.Possible (d : Draw) (s : State) (a : ValidatedArtifact) : Prop where
  manifestId : s.uploads.manifests.find d.manifestId = none
  uploadId : s.uploads.sessions.find d.uploadId = none
  image : match d.image with
    | some image => image ∈ (s.uploads.matchingImages a.identity).map DebugImage.id
    | none => s.uploads.matchingImages a.identity = []

/-- The statements of an artifact run from one of them to an answer. -/
inductive Ends (a : ValidatedArtifact) (d : Draw) :
    State → NegotiationStep → State → Negotiated → Prop where
  | last {s s' : State} {n : NegotiationStep} {r : Negotiated}
      (h : negotiateNext s a (d.newId n) d.image n = some (s', none)) (hr : n.ending = some r) :
      Ends a d s n s' r
  | next {s s' s'' : State} {n n' : NegotiationStep} {r : Negotiated}
      (h : negotiateNext s a (d.newId n) d.image n = some (s', some n')) (tail : Ends a d s' n' s'' r) :
      Ends a d s n s'' r

/-- The row of the artifact's path. -/
def Uploads.manifestAt (u : Uploads) (a : ValidatedArtifact) : Option ManifestArtifact :=
  u.manifests.rows.find? fun m => m.releaseId = a.releaseId ∧ m.sourcePath = a.path

/-- The artifact's release belongs to the project of the token. -/
def InScope (releaseProject : Uuid → Uuid) (_ : State) : Action → Prop
  | .startNegotiation _ a => a.projectId = releaseProject a.releaseId
  | _ => True

instance (releaseProject : Uuid → Uuid) (s : State) : DecidablePred (InScope releaseProject s) :=
  fun action => by
    induction action using Action.casesOn <;> unfold InScope <;> infer_instance

/-! ## Foreign keys -/

/-- Rows name the project of their release, and sessions an existing row. -/
structure Uploads.Keyed (releaseProject : Uuid → Uuid) (u : Uploads) : Prop where
  manifests : ∀ m ∈ u.manifests, m.projectId = releaseProject m.releaseId
  sessions : ∀ t ∈ u.sessions, ∃ m ∈ u.manifests, m.id = t.manifestId

section keys
variable {releaseProject : Uuid → Uuid} {u u' : Uploads}

theorem Uploads.Keyed.congr (h : u.Keyed releaseProject) (hm : u'.manifests = u.manifests)
    (hs : u'.sessions = u.sessions) : u'.Keyed releaseProject :=
  ⟨fun m hmem => h.manifests m (hm ▸ hmem), fun t ht => hm ▸ h.sessions t (hs ▸ ht)⟩

theorem Uploads.Keyed.setManifest (h : u.Keyed releaseProject) {m₀ m : ManifestArtifact}
    (hm : m₀ ∈ u.manifests) (hid : m.id = m₀.id) (hproject : m.projectId = m₀.projectId)
    (hrelease : m.releaseId = m₀.releaseId) : (u.setManifest m).Keyed releaseProject where
  manifests x hx := by
    rcases (mem_setManifest hm hid).mp hx with ⟨hx, -⟩ | rfl
    · exact h.manifests x hx
    · rw [hproject, hrelease]
      exact h.manifests m₀ hm
  sessions t ht := by
    obtain ⟨x, hx, hxid⟩ := h.sessions t ht
    by_cases hxm : x.id = m.id
    · exact ⟨m, (mem_setManifest hm hid).mpr (.inr rfl), hxm.symm.trans hxid⟩
    · exact ⟨x, (mem_setManifest hm hid).mpr (.inl ⟨hx, hxm⟩), hxid⟩

theorem Uploads.Keyed.moveSession (h : u.Keyed releaseProject) {id : Uuid}
    {source target : SessionState} {o : source.isOpen} :
    (u.moveSession id source target o).Keyed releaseProject where
  manifests := h.manifests
  sessions t ht := by
    rcases mem_moveSession.mp ht with ⟨ht, -⟩ | ⟨t₀, ht₀, -, -, rfl⟩
    · exact h.sessions t ht
    · exact h.sessions t₀ ht₀

theorem Uploads.Keyed.abort (h : u.Keyed releaseProject) (t : Option Session) :
    (u.abort t).1.Keyed releaseProject := by
  cases t with
  | none => exact h
  | some t => exact h.moveSession (o := rfl)

theorem Uploads.Keyed.tryUpsert (h : u.Keyed releaseProject) {a : ValidatedArtifact}
    (ha : a.projectId = releaseProject a.releaseId) {newId manifestId : Uuid}
    (hu : u.tryUpsertManifestArtifact a newId = .written manifestId u') :
    u'.Keyed releaseProject := by
  unfold Uploads.tryUpsertManifestArtifact at hu
  split at hu
  · split_ifs at hu with hnew
    cases hu
    have hnone : u.manifests.find newId = none := Option.not_isSome_iff_eq_none.mp hnew
    refine ⟨fun m hm => ?_, fun t ht => ?_⟩
    · rcases (Table.mem_insert hnone).mp hm with rfl | hm
      · exact ha
      · exact h.manifests m hm
    · obtain ⟨m, hm, hid⟩ := h.sessions t ht
      exact ⟨m, (Table.mem_insert hnone).mpr (.inr hm), hid⟩
  · next m hf =>
    split_ifs at hu
    cases hu
    have hm : m ∈ u.manifests := List.mem_of_find?_eq_some hf
    exact h.setManifest hm rfl rfl rfl

theorem Uploads.Keyed.updateManifestState (h : u.Keyed releaseProject) {projectId manifestId : Uuid}
    {state : ManifestState} (hu : u.updateManifestState projectId manifestId state = some u') :
    u'.Keyed releaseProject := by
  unfold Uploads.updateManifestState at hu
  split at hu
  · split_ifs at hu
    cases hu
    exact h
  · next m hm =>
    split_ifs at hu
    · cases hu
      exact h
    · cases hu
      exact h.setManifest (manifest_eq_some hm).1 rfl rfl rfl

theorem Uploads.Keyed.markManifestAvailable (h : u.Keyed releaseProject)
    {projectId manifestId image : Uuid}
    (hu : u.markManifestAvailable projectId manifestId image = some u') :
    u'.Keyed releaseProject := by
  obtain ⟨m, hm, hu⟩ := Option.bind_eq_some_iff.mp hu
  cases hu
  exact h.setManifest (manifest_eq_some hm).1 rfl rfl rfl

theorem Uploads.Keyed.insertSession (h : u.Keyed releaseProject) {a : ValidatedArtifact}
    {manifestId id : Uuid} {now : Nat} (hu : u.insertSession a manifestId id now = some u') :
    u'.Keyed releaseProject := by
  obtain ⟨t, -, -, -, hmem, hmanifests, -, m, hm, hid, -⟩ := insertSession_eq_some hu
  refine ⟨fun x hx => h.manifests x (hmanifests ▸ hx), fun x hx => ?_⟩
  rw [hmanifests]
  rcases (hmem x).mp hx with rfl | hx
  · exact ⟨m, hm, hid⟩
  · exact h.sessions x hx

theorem Uploads.Keyed.enqueueArtifactIndex (h : u.Keyed releaseProject) {session : Session}
    (hu : u.enqueueArtifactIndex session = some u') : u'.Keyed releaseProject := by
  obtain ⟨t, m, -, -, -, hm, -, -, -, rfl⟩ := enqueueArtifactIndex_eq_some hu
  have hmove : (u.moveSession t.id .completing .processing rfl).Keyed releaseProject := h.moveSession
  exact hmove.setManifest hm rfl rfl rfl

theorem Uploads.Keyed.endArtifact (h : u.Keyed releaseProject) {artifact : Session}
    {session : SessionState} {manifest : ManifestState} {image : Option Uuid}
    (hu : u.endArtifact artifact session manifest image = some u') : u'.Keyed releaseProject := by
  obtain ⟨t, m, -, -, -, -, hm, -, rfl⟩ := endArtifact_eq_some hu
  have hmove : (u.moveSession t.id .processing session rfl).Keyed releaseProject := h.moveSession
  exact hmove.setManifest hm rfl rfl rfl

theorem Uploads.Keyed.failArtifact (h : u.Keyed releaseProject) {projectId uploadId : Uuid}
    {code : String} (hu : u.failArtifact projectId uploadId code = some u') :
    u'.Keyed releaseProject := by
  obtain ⟨t, m, -, -, -, hm, -, rfl⟩ := failArtifact_eq_some hu
  have hmove : (u.moveSession t.id .processing (.failed code) rfl).Keyed releaseProject :=
    h.moveSession
  exact hmove.setManifest hm rfl rfl rfl

theorem Uploads.Keyed.publishArtifact (h : u.Keyed releaseProject) {artifact : Session}
    {objectId imageId : Uuid} {key : ObjectKey}
    (hu : u.publishArtifact artifact objectId imageId = some (u', key)) :
    u'.Keyed releaseProject := by
  obtain ⟨v, w, o, image, ho, hi, hx, -⟩ := publishArtifact_eq_some hu
  obtain ⟨-, -, hvs, hvm, -⟩ := upsertObject_eq_some ho
  obtain ⟨hws, hwm, -⟩ := upsertImage_eq_some hi
  have hw : w.Keyed releaseProject := h.congr (hwm.trans hvm) (hws.trans hvs)
  exact hw.endArtifact hx

end keys

/-! ## Runs -/

structure State.Keyed (releaseProject : Uuid → Uuid) (s : State) : Prop where
  uploads : s.uploads.Keyed releaseProject
  negotiations : ∀ n ∈ s.negotiations, n.artifact.projectId = releaseProject n.artifact.releaseId

section runs
variable {releaseProject : Uuid → Uuid} {s s' : State}

theorem keyed_init : State.init.Keyed releaseProject := ⟨⟨nofun, nofun⟩, nofun⟩

theorem Uploads.Keyed.negotiateNext (h : s.uploads.Keyed releaseProject) {a : ValidatedArtifact}
    (ha : a.projectId = releaseProject a.releaseId) {newId : Uuid} {image : Option Uuid}
    {n : NegotiationStep} {next : Option NegotiationStep}
    (hs : SymbolUpload.negotiateNext s a newId image n = some (s', next)) :
    s'.uploads.Keyed releaseProject := by
  cases states_negotiateNext hs with
  | reads => exact h
  | upserts hu => exact h.tryUpsert ha hu
  | retires t =>
    rw [abortMultipart_uploads]
    exact h.abort t
  | marks _ hu => exact h.markManifestAvailable hu
  | updates _ hu => exact h.updateManifestState hu
  | inserts hu => exact h.insertSession hu

theorem State.Keyed.negotiate (h : s.Keyed releaseProject) {id newId : Uuid} {image : Option Uuid}
    (hs : SymbolUpload.negotiate s id newId image = some s') : s'.Keyed releaseProject := by
  obtain ⟨n, hn, hs⟩ := Option.bind_eq_some_iff.mp hs
  obtain ⟨⟨u, next⟩, hu, hs⟩ := Option.bind_eq_some_iff.mp hs
  have hscope := h.negotiations n (Table.find_eq_some.mp hn).1
  have huploads := h.uploads.negotiateNext hscope hu
  have hnegotiations : ∀ x ∈ u.negotiations,
      x.artifact.projectId = releaseProject x.artifact.releaseId := by
    rw [negotiateNext_negotiations hu]
    exact h.negotiations
  cases next with
  | none =>
    cases hs
    exact ⟨huploads, fun x hx => hnegotiations x (Table.mem_delete.mp hx).1⟩
  | some step =>
    cases hs
    refine ⟨huploads, fun x hx => ?_⟩
    simp only [Table.mem_modify] at hx
    rcases hx with ⟨hx, -⟩ | ⟨x₀, hx₀, rfl⟩
    · exact hnegotiations x hx
    · exact hnegotiations x₀ (Table.find_eq_some.mp hx₀).1

theorem State.Keyed.step (h : s.Keyed releaseProject) {action : Action}
    (ha : InScope releaseProject s action) (hs : SymbolUpload.step s action = some s') :
    s'.Keyed releaseProject := by
  rcases writes_step hs with ⟨id, artifact, rfl⟩ | ⟨id, newId, image, rfl⟩ | ⟨hn, hwrites⟩
  · change startNegotiation s id artifact = some s' at hs
    unfold SymbolUpload.startNegotiation at hs
    split_ifs at hs
    cases hs
    refine ⟨h.uploads, fun n hn => ?_⟩
    rcases Table.mem_of_mem_insert hn with rfl | hn
    · exact ha
    · exact h.negotiations n hn
  · exact h.negotiate hs
  · refine ⟨?_, fun n hmem => h.negotiations n (hn ▸ hmem)⟩
    cases hwrites with
    | keeps hu => exact hu ▸ h.uploads
    | begins hu => exact hu ▸ h.uploads.moveSession (o := rfl)
    | enqueues _ _ hu => exact h.uploads.enqueueArtifactIndex hu
    | publishes _ _ hu => exact h.uploads.publishArtifact hu
    | rejects _ _ hu => exact h.uploads.endArtifact hu
    | fails hu => exact h.uploads.failArtifact hu

theorem keyed_of_reachable
    (h : Reachable (restrict step (InScope releaseProject)) (fun _ => True) .init s) :
    s.Keyed releaseProject :=
  h.invariant (State.Keyed releaseProject) keyed_init fun _ _ _ _ hk hs _ =>
    have hstep := restrict_eq_some.mp hs
    hk.step hstep.1 hstep.2

end runs

/-! ## A row from which the artifact can be uploaded -/

/-- The row has the columns of the artifact, no failure code and no open session. -/
structure Uploads.Ready (u : Uploads) (a : ValidatedArtifact) (m : ManifestArtifact) : Prop where
  mem : m ∈ u.manifests
  projectId : m.projectId = a.projectId
  releaseId : m.releaseId = a.releaseId
  sourcePath : m.sourcePath = a.path
  identity : m.identity = a.identity
  state : ¬ m.state.quarantinedBy.isSome
  closed : ∀ t ∈ u.sessions, t.manifestId = m.id → ¬ t.isOpen

section ready
variable {u : Uploads} {a : ValidatedArtifact} {m : ManifestArtifact}

theorem Uploads.Ready.manifest (h : u.Ready a m) : u.manifest a.projectId m.id = some m :=
  h.projectId ▸ manifest_of_mem h.mem

theorem sessionWhere_of_closed {p : Session → Prop} [DecidablePred p]
    (h : ∀ t ∈ u.sessions, ¬ p t) : u.sessionWhere p = none :=
  List.find?_eq_none.mpr fun t ht => by simpa using h t ht

theorem quarantinedBy_replaced (m : ManifestArtifact) (a : ValidatedArtifact) :
    ¬ (m.replaced a).state.quarantinedBy.isSome := by
  unfold ManifestArtifact.replaced
  dsimp only
  split_ifs <;> exact Bool.false_ne_true

theorem find_eq_some_of_manifestAt {releaseProject : Uuid → Uuid} (h : u.Keyed releaseProject)
    (ha : a.projectId = releaseProject a.releaseId) (hm : u.manifestAt a = some m) :
    m ∈ u.manifests ∧ m.releaseId = a.releaseId ∧ m.sourcePath = a.path ∧
      m.projectId = a.projectId := by
  have hmem : m ∈ u.manifests := List.mem_of_find?_eq_some hm
  unfold Uploads.manifestAt at hm
  have hcolumns := List.find?_some hm
  obtain ⟨hrelease, hpath⟩ := of_decide_eq_true hcolumns
  refine ⟨hmem, hrelease, hpath, ?_⟩
  rw [h.manifests m hmem, hrelease, ha]

/-- The upsert writes a row of a path without open sessions when it is not quarantined. -/
theorem tryUpsert_ready {releaseProject : Uuid → Uuid} (h : u.Keyed releaseProject)
    (ha : a.projectId = releaseProject a.releaseId) {newId : Uuid}
    (hnew : u.manifests.find newId = none)
    (hclosed : ∀ m ∈ u.manifestAt a, ∀ t ∈ u.sessions, t.manifestId = m.id → ¬ t.isOpen)
    (hstate : ∀ m ∈ u.manifestAt a, ¬ m.state.quarantinedBy.isSome) :
    ∃ m u', u.tryUpsertManifestArtifact a newId = .written m.id u' ∧ u'.Ready a m ∧
      u'.sessions = u.sessions ∧ u'.objects = u.objects ∧ u'.images = u.images := by
  unfold Uploads.tryUpsertManifestArtifact
  cases hm : u.manifestAt a with
  | none =>
    rw [show u.manifests.rows.find? _ = none from hm]
    dsimp only
    have hfree : ¬ (u.manifests.find newId).isSome := by
      rw [hnew]
      exact Bool.false_ne_true
    refine ⟨⟨newId, a.projectId, a.releaseId, a.path, a.identity, none, .missing⟩, _, if_neg hfree,
      ⟨(Table.mem_insert hnew).mpr (.inl rfl), rfl, rfl, rfl, rfl, Bool.false_ne_true, ?_⟩,
      rfl, rfl, rfl⟩
    intro t ht hid
    obtain ⟨m, hmem, hmid⟩ := h.sessions t ht
    exact absurd (hmid.trans hid) (Table.find_eq_none.mp hnew m hmem)
  | some m =>
    obtain ⟨hmem, hrelease, hpath, hproject⟩ := find_eq_some_of_manifestAt h ha hm
    have hopen : u.sessionWhere (fun t => t.manifestId = m.id ∧ t.isOpen) = none :=
      sessionWhere_of_closed fun t ht ho => hclosed m hm t ht ho.1 ho.2
    rw [show u.manifests.rows.find? _ = some m from hm]
    dsimp only
    rw [if_pos ⟨hproject, .inl (Option.isNone_iff_eq_none.mpr hopen)⟩, if_neg (hstate m hm)]
    have hrow : m.replaced a ∈ (u.setManifest (m.replaced a)).manifests :=
      (mem_setManifest (m := m.replaced a) hmem rfl).mpr (.inr rfl)
    exact ⟨m.replaced a, _, rfl, ⟨hrow, hproject, hrelease,
      hpath, rfl, quarantinedBy_replaced m a, hclosed m hm⟩, rfl, rfl, rfl⟩

/-- The update to another state keeps the row ready. -/
theorem Uploads.Ready.updateManifestState (h : u.Ready a m) (state : ManifestState)
    (hstate : ¬ state.quarantinedBy.isSome) :
    ∃ m' u', u.updateManifestState a.projectId m.id state = some u' ∧ u'.Ready a m' ∧
      m'.id = m.id ∧ u'.sessions = u.sessions := by
  unfold Uploads.updateManifestState
  rw [h.manifest]
  dsimp only
  split_ifs with hprocessing hquarantined
  · exact ⟨m, u, rfl, h, rfl, rfl⟩
  · exact absurd hquarantined h.state
  · have hmem : { m with state := state, debugImage := none } ∈
        (u.setManifest { m with state := state, debugImage := none }).manifests :=
      (mem_setManifest (m := { m with state := state, debugImage := none }) h.mem rfl).mpr (.inr rfl)
    exact ⟨{ m with state := state, debugImage := none }, _, rfl,
      ⟨hmem, h.projectId, h.releaseId, h.sourcePath,
        h.identity, hstate, h.closed⟩, rfl, rfl⟩

theorem Uploads.Ready.insertSession (h : u.Ready a m) {id : Nat} (now : Nat)
    (hid : u.sessions.find id = none) : (u.insertSession a m.id id now).isSome := by
  have hfree : u.sessions.table.find id = none ∧ ∀ b ∈ u.sessions.table.rows,
      ¬ (Session.isOpen ⟨id, a.projectId, m.id, a.identity, .active, now + sessionSeconds⟩ ∧
        b.isOpen ∧ m.id = b.manifestId) :=
    ⟨hid, fun b hb ho => h.closed b hb ho.2.2.symm ho.2.1⟩
  unfold Uploads.insertSession
  rw [h.manifest, Option.bind_eq_bind, Option.bind_some,
    if_pos ⟨h.releaseId, h.sourcePath, h.identity⟩, IndexedTable.insert, dif_pos hfree]
  rfl

end ready

section ends
variable {s : State} {a : ValidatedArtifact} {m : ManifestArtifact} {d : Draw}

/-- Without open sessions a new one is created. -/
theorem ends_of_missing (h : s.uploads.Ready a m) (hid : s.uploads.sessions.find d.uploadId = none) :
    ∃ s', Ends a d s (.retireStale m.id) s' .uploadRequired := by
  have hstale : s.uploads.retireStaleSession a m.id s.now = (s.uploads, none) := by
    unfold Uploads.retireStaleSession
    rw [sessionWhere_of_closed fun t ht hp => ?_]
    · rfl
    · exact h.closed t ht hp.2.1 (Session.isOpen_of_eq hp.2.2.1 rfl)
  have hconflict : ¬ s.uploads.conflictingSession a m.id := by
    unfold Uploads.conflictingSession
    rw [sessionWhere_of_closed fun t ht hp => ?_]
    · exact Bool.false_ne_true
    · rcases hp.2.2.1 with hstate | hstate
      · exact h.closed t ht hp.2.1 (Session.isOpen_of_eq hstate rfl)
      · exact h.closed t ht hp.2.1 (Session.isOpen_of_eq hstate rfl)
  have hactive : s.uploads.loadActiveSession a m.id s.now = none := by
    refine sessionWhere_of_closed fun t ht hp => ?_
    rcases hp.2.2 with hstate | hstate | ⟨hstate, -⟩
    · exact h.closed t ht hp.2.1 (Session.isOpen_of_eq hstate rfl)
    · exact h.closed t ht hp.2.1 (Session.isOpen_of_eq hstate rfl)
    · exact h.closed t ht hp.2.1 (Session.isOpen_of_eq hstate rfl)
  obtain ⟨u, hu⟩ := Option.isSome_iff_exists.mp (h.insertSession s.now hid)
  have hretire : negotiateNext s a (d.newId (.retireStale m.id)) d.image (.retireStale m.id) =
      some (s, some (.checkConflict m.id)) := by
    dsimp only [negotiateNext]
    rw [hstale]
    rfl
  have hcheck : negotiateNext s a (d.newId (.checkConflict m.id)) d.image (.checkConflict m.id) =
      some (s, some (.loadActive m.id)) := if_neg hconflict
  have hload : negotiateNext s a (d.newId (.loadActive m.id)) d.image (.loadActive m.id) =
      some (s, some (.create m.id)) := by
    dsimp only [negotiateNext]
    rw [hactive]
    rfl
  have hcreate : negotiateNext s a (d.newId (.create m.id)) d.image (.create m.id) =
      some ({ s with uploads := u, multiparts := d.uploadId :: s.multiparts }, none) := by
    dsimp only [negotiateNext]
    rw [show s.uploads.insertSession a m.id (d.newId (.create m.id)) s.now = some u from hu]
    rfl
  exact ⟨_, .next hretire (.next hcheck (.next hload (.last hcreate rfl)))⟩

theorem ends_of_ready (h : s.uploads.Ready a m) (hid : s.uploads.sessions.find d.uploadId = none)
    (himage : match d.image with
      | some image => image ∈ (s.uploads.matchingImages a.identity).map DebugImage.id
      | none => s.uploads.matchingImages a.identity = []) :
    ∃ s' r, Ends a d s (.findMatchingImage m.id) s' r := by
  cases hd : d.image with
  | some image =>
    rw [hd] at himage
    have hfind : negotiateNext s a (d.newId (.findMatchingImage m.id)) d.image
        (.findMatchingImage m.id) = some (s, some (.markAvailable m.id image)) := by
      dsimp only [negotiateNext]
      rw [hd]
      exact if_pos himage
    have hmark : negotiateNext s a (d.newId (.markAvailable m.id image)) d.image
        (.markAvailable m.id image) = some ({ s with
          uploads := s.uploads.setManifest { m with state := .available, debugImage := some image } },
            none) := by
      dsimp only [negotiateNext]
      unfold Uploads.markManifestAvailable
      rw [h.manifest]
      rfl
    exact ⟨_, _, .next hfind (.last hmark rfl)⟩
  | none =>
    rw [hd] at himage
    have hfind : negotiateNext s a (d.newId (.findMatchingImage m.id)) d.image
        (.findMatchingImage m.id) = some (s, some (.hasChecksum m.id)) := by
      dsimp only [negotiateNext]
      rw [hd]
      exact if_pos himage
    by_cases hsum : s.uploads.organizationHasChecksum a.identity
    · have hchecksum : negotiateNext s a (d.newId (.hasChecksum m.id)) d.image (.hasChecksum m.id) =
          some (s, some (.markMismatch m.id)) := by
        dsimp only [negotiateNext]
        rw [if_pos hsum]
      obtain ⟨m', u, hu, -⟩ := h.updateManifestState .mismatch Bool.false_ne_true
      have hmark : negotiateNext s a (d.newId (.markMismatch m.id)) d.image (.markMismatch m.id) =
          some ({ s with uploads := u }, none) := by
        dsimp only [negotiateNext]
        rw [hu]
        rfl
      exact ⟨_, _, .next hfind (.next hchecksum (.last hmark rfl))⟩
    · have hchecksum : negotiateNext s a (d.newId (.hasChecksum m.id)) d.image (.hasChecksum m.id) =
          some (s, some (.markMissing m.id)) := by
        dsimp only [negotiateNext]
        rw [if_neg hsum]
      obtain ⟨m', u, hu, hready, hm', hsessions⟩ :=
        h.updateManifestState .missing Bool.false_ne_true
      have hmark : negotiateNext s a (d.newId (.markMissing m.id)) d.image (.markMissing m.id) =
          some ({ s with uploads := u }, some (.retireStale m'.id)) := by
        dsimp only [negotiateNext]
        rw [hu, hm']
        rfl
      have hid' : u.sessions.find d.uploadId = none := hsessions ▸ hid
      obtain ⟨s', hends⟩ := ends_of_missing (s := { s with uploads := u }) hready hid'
      exact ⟨_, _, .next hfind (.next hchecksum (.next hmark hends))⟩

/-- A quarantined row keeps its failure code in the upsert, which violates the check. -/
theorem not_ends_of_quarantined {releaseProject : Uuid → Uuid} (h : s.uploads.Keyed releaseProject)
    (ha : a.projectId = releaseProject a.releaseId) (hm : s.uploads.manifestAt a = some m)
    (hclosed : ∀ t ∈ s.uploads.sessions, t.manifestId = m.id → ¬ t.isOpen)
    (hstate : m.state.quarantinedBy.isSome) {s' : State} {r : Negotiated} :
    ¬ Ends a d s .upsertManifest s' r := by
  obtain ⟨hmem, hrelease, hpath, hproject⟩ := find_eq_some_of_manifestAt h ha hm
  have hopen : s.uploads.sessionWhere (fun t => t.manifestId = m.id ∧ t.isOpen) = none :=
    sessionWhere_of_closed fun t ht ho => hclosed t ht ho.1 ho.2
  have hupsert : s.uploads.tryUpsertManifestArtifact a d.manifestId = .unavailable := by
    unfold Uploads.tryUpsertManifestArtifact
    rw [show s.uploads.manifests.rows.find? _ = some m from hm]
    dsimp only
    rw [if_pos ⟨hproject, .inl (Option.isNone_iff_eq_none.mpr hopen)⟩, if_pos hstate]
  have hnext : negotiateNext s a (d.newId .upsertManifest) d.image .upsertManifest = none := by
    dsimp only [negotiateNext, Draw.newId]
    rw [hupsert]
  intro hends
  cases hends with
  | last hs _ => cases hnext.symm.trans hs
  | next hs _ => cases hnext.symm.trans hs

end ends

/-- An artifact of a path without open sessions can be negotiated to an answer just when its row
is not quarantined. -/
theorem ends_iff {releaseProject : Uuid → Uuid} {s : State}
    (h : Reachable (restrict step (InScope releaseProject)) (fun _ => True) .init s)
    {a : ValidatedArtifact} (ha : a.projectId = releaseProject a.releaseId)
    (hclosed : ∀ m ∈ s.uploads.manifestAt a, ∀ t ∈ s.uploads.sessions, t.manifestId = m.id →
      ¬ t.isOpen) {d : Draw} (hd : d.Possible s a) :
    (∃ s' r, Ends a d s .upsertManifest s' r) ↔
      ∀ m ∈ s.uploads.manifestAt a, ¬ m.state.quarantinedBy.isSome := by
  have hkeyed := (keyed_of_reachable h).uploads
  constructor
  · rintro ⟨s', r, hends⟩ m hm hquarantined
    exact not_ends_of_quarantined hkeyed ha hm (hclosed m hm) hquarantined hends
  · intro hstate
    obtain ⟨m, u, hu, hready, hsessions, hobjects, himages⟩ :=
      tryUpsert_ready hkeyed ha hd.manifestId hclosed hstate
    have hupsert : negotiateNext s a (d.newId .upsertManifest) d.image .upsertManifest =
        some ({ s with uploads := u }, some (.findMatchingImage m.id)) := by
      dsimp only [negotiateNext, Draw.newId]
      rw [hu]
    have hmatching : u.matchingImages a.identity = s.uploads.matchingImages a.identity := by
      unfold Uploads.matchingImages
      rw [hobjects, himages]
    have hid : u.sessions.find d.uploadId = none := hsessions ▸ hd.uploadId
    obtain ⟨s', r, hends⟩ := ends_of_ready (s := { s with uploads := u }) hready hid
      (by rw [hmatching]; exact hd.image)
    exact ⟨s', r, .next hupsert hends⟩

/-! ## A rejected artifact -/

section rejected

/-- An uploaded artifact that its index job rejects. -/
def rejection (code : String) (quarantine : Bool) : List Action :=
  uploadRun 1 1 7 11 21 ++ completeRun 1 21 7 ++
    [.claim 21 ⟨9, 31⟩, .loadArtifact 31, .publishArtifactFailure 31 code quarantine]

def rejected (code : String) (quarantine : Bool) : Option State :=
  run (restrict step (InScope fun _ => 1)) (fun _ => True) .init (rejection code quarantine)

/-- The artifact that is built anew for the same path. -/
def rebuilt : ValidatedArtifact := ⟨1, 1, "game.pdb", sampleIdentity 8⟩

def sampleDraw : Draw := ⟨12, 22, none⟩

theorem reachable_rejected {code : String} {quarantine : Bool} {s : State}
    (hs : rejected code quarantine = some s) :
    Reachable (restrict step (InScope fun _ => 1)) (fun _ => True) .init s :=
  .of_run (.init trivial) hs

/-- After a mismatch the path takes a new artifact. -/
theorem ends_iff_mismatch : ∃ s, rejected "artifact_mismatch" false = some s ∧
    ((∃ s' r, Ends rebuilt sampleDraw s .upsertManifest s' r) ↔
      ∀ m ∈ s.uploads.manifestAt rebuilt, ¬ m.state.quarantinedBy.isSome) := by
  have hrun : (rejected "artifact_mismatch" false).isSome := by decide +kernel
  obtain ⟨s, hs⟩ := Option.isSome_iff_exists.mp hrun
  have hclosed : ∀ s ∈ rejected "artifact_mismatch" false, ∀ m ∈ s.uploads.manifestAt rebuilt,
      ∀ t ∈ s.uploads.sessions.table.rows, t.manifestId = m.id → ¬ t.isOpen := by
    decide +kernel
  have hmanifest : ∀ s ∈ rejected "artifact_mismatch" false,
      s.uploads.manifests.find sampleDraw.manifestId = none := by decide +kernel
  have hupload : ∀ s ∈ rejected "artifact_mismatch" false,
      s.uploads.sessions.find sampleDraw.uploadId = none := by decide +kernel
  have himage : ∀ s ∈ rejected "artifact_mismatch" false,
      s.uploads.matchingImages rebuilt.identity = [] := by decide +kernel
  exact ⟨s, hs, ends_iff (reachable_rejected hs) (a := rebuilt) rfl (hclosed s hs)
    ⟨hmanifest s hs, hupload s hs, himage s hs⟩⟩

/-- A quarantined path refuses every artifact. -/
theorem not_ends_quarantined :
    ¬ ∀ s, Reachable (restrict step (InScope fun _ => 1)) (fun _ => True) .init s →
      ∀ a : ValidatedArtifact, a.projectId = 1 →
        (∀ m ∈ s.uploads.manifestAt a, ∀ t ∈ s.uploads.sessions, t.manifestId = m.id →
          ¬ t.isOpen) →
        ∀ d : Draw, d.Possible s a → ∃ s' r, Ends a d s .upsertManifest s' r := by
  intro h
  have hrun : (rejected "artifact_malformed" true).isSome := by decide +kernel
  obtain ⟨s, hs⟩ := Option.isSome_iff_exists.mp hrun
  have hclosed : ∀ s ∈ rejected "artifact_malformed" true, ∀ m ∈ s.uploads.manifestAt rebuilt,
      ∀ t ∈ s.uploads.sessions.table.rows, t.manifestId = m.id → ¬ t.isOpen := by
    decide +kernel
  have hmanifest : ∀ s ∈ rejected "artifact_malformed" true,
      s.uploads.manifests.find sampleDraw.manifestId = none := by decide +kernel
  have hupload : ∀ s ∈ rejected "artifact_malformed" true,
      s.uploads.sessions.find sampleDraw.uploadId = none := by decide +kernel
  have himage : ∀ s ∈ rejected "artifact_malformed" true,
      s.uploads.matchingImages rebuilt.identity = [] := by decide +kernel
  have hrow : ∀ s ∈ rejected "artifact_malformed" true,
      ∃ m ∈ s.uploads.manifestAt rebuilt, m.state.quarantinedBy.isSome := by decide +kernel
  obtain ⟨m, hm, hstate⟩ := hrow s hs
  obtain ⟨s', r, hends⟩ := h s (reachable_rejected hs) rebuilt rfl (hclosed s hs) sampleDraw
    ⟨hmanifest s hs, hupload s hs, himage s hs⟩
  exact not_ends_of_quarantined (keyed_of_reachable (reachable_rejected hs)).uploads rfl hm
    (hclosed s hs m hm) hstate hends

end rejected
end FaultLane.SymbolUpload
