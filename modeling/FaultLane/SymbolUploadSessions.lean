import FaultLane.SymbolUploadSteps

set_option autoImplicit false

/-!
# Sessions and manifest rows stay in step

An open session carries the columns of its manifest row, whatever the order of the calls.
While no negotiation marks a row that an index job is working on, the row of a session that
is being indexed is in that state too, and the job finds both when it ends.
-/
namespace FaultLane.SymbolUpload
open KeyedTable JobQueue TransitionSystem

structure Uploads.InStep (u : Uploads) : Prop where
  carried : ∀ t ∈ u.sessions, t.isOpen →
    ∃ m ∈ u.manifests, m.id = t.manifestId ∧ m.projectId = t.projectId ∧ m.identity = t.identity
  processing : ∀ t ∈ u.sessions, t.state = .processing →
    ∀ m ∈ u.manifests, m.id = t.manifestId → m.state = .processing

section rows
variable {u u' : Uploads}

theorem Session.isOpen_of_eq {t : Session} {state : SessionState} (h : t.state = state)
    (ho : state.isOpen = true) : t.isOpen := (congrArg SessionState.isOpen h).trans ho

theorem Uploads.InStep.setManifest (h : u.InStep) {m₀ m : ManifestArtifact}
    (hm : m₀ ∈ u.manifests) (hid : m.id = m₀.id) (hproject : m.projectId = m₀.projectId)
    (hident : m.identity = m₀.identity ∨ ∀ t ∈ u.sessions, t.isOpen → t.manifestId ≠ m.id)
    (hstate : m.state = .processing ∨
      ∀ t ∈ u.sessions, t.state = .processing → t.manifestId ≠ m.id) :
    (u.setManifest m).InStep where
  carried t ht ho := by
    obtain ⟨x, hx, hxid, hxp, hxi⟩ := h.carried t ht ho
    by_cases hxm : x.id = m.id
    · obtain rfl := Table.eq_of_key_eq hx hm (hxm.trans hid)
      refine ⟨m, (mem_setManifest hm hid).mpr (.inr rfl), hid.trans hxid, hproject.trans hxp, ?_⟩
      rcases hident with heq | hfree
      · exact heq.trans hxi
      · exact absurd (hxid.symm.trans hid.symm) (hfree t ht ho)
    · exact ⟨x, (mem_setManifest hm hid).mpr (.inl ⟨hx, hxm⟩), hxid, hxp, hxi⟩
  processing t ht hp x hx hxid := by
    rcases (mem_setManifest hm hid).mp hx with ⟨hx, -⟩ | rfl
    · exact h.processing t ht hp x hx hxid
    · rcases hstate with heq | hfree
      · exact heq
      · exact absurd hxid.symm (hfree t ht hp)

/-- No session of a row is being indexed unless the row says so. -/
theorem Uploads.InStep.not_processing (h : u.InStep) {m : ManifestArtifact} (hm : m ∈ u.manifests)
    (hstate : m.state ≠ .processing) :
    ∀ t ∈ u.sessions, t.state = .processing → t.manifestId ≠ m.id :=
  fun t ht hp hid => hstate (h.processing t ht hp m hm hid.symm)

/-- Moves that do not start the indexing. -/
theorem Uploads.InStep.moveSession (h : u.InStep) {id : Uuid} {source target : SessionState}
    {o : source.isOpen} (htarget : target ≠ .processing) :
    (u.moveSession id source target o).InStep where
  carried t ht hopen := by
    rcases mem_moveSession.mp ht with ⟨ht, -⟩ | ⟨t₀, ht₀, -, hs, rfl⟩
    · exact h.carried t ht hopen
    · exact h.carried t₀ ht₀ (Session.isOpen_of_eq hs o)
  processing t ht hp := by
    rcases mem_moveSession.mp ht with ⟨ht, -⟩ | ⟨t₀, -, -, -, rfl⟩
    · exact h.processing t ht hp
    · exact absurd hp htarget

theorem Uploads.InStep.startIndexing (h : u.InStep) {t : Session} (ht : t ∈ u.sessions)
    {o : SessionState.completing.isOpen}
    (hm : ∀ m ∈ u.manifests, m.id = t.manifestId → m.state = .processing) :
    (u.moveSession t.id .completing .processing o).InStep where
  carried x hx hopen := by
    rcases mem_moveSession.mp hx with ⟨hx, -⟩ | ⟨x₀, hx₀, -, hs, rfl⟩
    · exact h.carried x hx hopen
    · exact h.carried x₀ hx₀ (Session.isOpen_of_eq hs o)
  processing x hx hp := by
    rcases mem_moveSession.mp hx with ⟨hx, -⟩ | ⟨x₀, hx₀, hid, -, rfl⟩
    · exact h.processing x hx hp
    · obtain rfl := IndexedTable.eq_of_key_eq hx₀ ht hid
      exact hm

/-- After its only open session is closed, a row has none that is being indexed. -/
theorem not_processing_of_closed {t : Session} (ht : t ∈ u.sessions) (hs : t.state = .processing)
    {target : SessionState} {o : SessionState.processing.isOpen} (hclosed : target.isOpen = false) :
    ∀ x ∈ (u.moveSession t.id .processing target o).sessions, x.state = .processing →
      x.manifestId ≠ t.manifestId := by
  intro x hx hp hid
  rcases mem_moveSession.mp hx with ⟨hx, hmove⟩ | ⟨x₀, -, -, -, rfl⟩
  · obtain rfl := u.sessions.indexed x hx t ht (Session.isOpen_of_eq hp rfl)
      (Session.isOpen_of_eq hs rfl) hid
    exact hmove ⟨rfl, hp⟩
  · have htarget : target = .processing := hp
    rw [htarget] at hclosed
    cases hclosed

/-- The end of an indexed session and of its manifest row. -/
theorem Uploads.InStep.endIndexing (h : u.InStep) {t : Session} (ht : t ∈ u.sessions)
    (hs : t.state = .processing) {m₀ m : ManifestArtifact} (hm : m₀ ∈ u.manifests)
    (hid : m.id = m₀.id) (hproject : m.projectId = m₀.projectId)
    (hident : m.identity = m₀.identity) (hmid : m₀.id = t.manifestId) {target : SessionState}
    {o : SessionState.processing.isOpen} (hclosed : target.isOpen = false) :
    ((u.moveSession t.id .processing target o).setManifest m).InStep := by
  have htarget : target ≠ .processing := by
    rintro rfl
    cases hclosed
  refine (h.moveSession htarget).setManifest hm hid hproject (.inl hident) (.inr ?_)
  intro x hx hp hxm
  exact not_processing_of_closed ht hs hclosed x hx hp (hxm.trans (hid.trans hmid))

/-! ## Statements -/

theorem Uploads.InStep.tryUpsert (h : u.InStep) {a : ValidatedArtifact} {newId manifestId : Uuid}
    (hu : u.tryUpsertManifestArtifact a newId = .written manifestId u') : u'.InStep := by
  unfold Uploads.tryUpsertManifestArtifact at hu
  split at hu
  · split_ifs at hu with hnew
    cases hu
    have hnone : u.manifests.find newId = none := Option.not_isSome_iff_eq_none.mp hnew
    refine ⟨fun t ht ho => ?_, fun t ht hp x hx hxid => ?_⟩
    · obtain ⟨m, hm, hcolumns⟩ := h.carried t ht ho
      exact ⟨m, (Table.mem_insert hnone).mpr (.inr hm), hcolumns⟩
    · rcases (Table.mem_insert hnone).mp hx with rfl | hx
      · obtain ⟨m, hm, hid, -⟩ := h.carried t ht (Session.isOpen_of_eq hp rfl)
        exact absurd (hid.trans hxid.symm) (Table.find_eq_none.mp hnone m hm)
      · exact h.processing t ht hp x hx hxid
  · next m hf =>
    split_ifs at hu with hguard
    cases hu
    have hm : m ∈ u.manifests := List.mem_of_find?_eq_some hf
    have hfree : m.identity = a.identity ∨ ∀ t ∈ u.sessions, t.isOpen → t.manifestId ≠ m.id := by
      rcases hguard.2 with hnone | heq
      · refine .inr fun t ht ho hid => ?_
        exact sessionWhere_eq_none (Option.isNone_iff_eq_none.mp hnone) t ht ⟨hid, ho⟩
      · exact .inl heq
    refine h.setManifest hm rfl rfl ?_ ?_
    · exact hfree.imp Eq.symm id
    · by_cases hp : m.state = .processing
      · rcases hfree with heq | hfree
        · exact .inl (if_pos ⟨hp, heq⟩)
        · exact .inr fun t ht hpt => hfree t ht (Session.isOpen_of_eq hpt rfl)
      · exact .inr fun t ht hpt => h.not_processing hm hp t ht hpt

theorem Uploads.InStep.abort (h : u.InStep) (t : Option Session) : (u.abort t).1.InStep := by
  cases t with
  | none => exact h
  | some t => exact h.moveSession (o := rfl) nofun

theorem Uploads.InStep.markManifestAvailable (h : u.InStep) {projectId manifestId image : Uuid}
    (hb : ∀ m ∈ u.manifests.find manifestId, m.state ≠ .processing)
    (hu : u.markManifestAvailable projectId manifestId image = some u') : u'.InStep := by
  obtain ⟨m, hm, hu⟩ := Option.bind_eq_some_iff.mp hu
  cases hu
  obtain ⟨hm, hid, -⟩ := manifest_eq_some hm
  have hstate := hb m (Table.find_eq_some.mpr ⟨hm, hid⟩)
  exact h.setManifest hm rfl rfl (.inl rfl)
    (.inr fun t ht hp => h.not_processing hm hstate t ht hp)

theorem Uploads.InStep.updateManifestState (h : u.InStep) {projectId manifestId : Uuid}
    {state : ManifestState}
    (hb : state = .missing ∨ ∀ m ∈ u.manifests.find manifestId, m.state ≠ .processing)
    (hu : u.updateManifestState projectId manifestId state = some u') : u'.InStep := by
  unfold Uploads.updateManifestState at hu
  split at hu
  · split_ifs at hu
    cases hu
    exact h
  · next m hm =>
    obtain ⟨hm, hid, -⟩ := manifest_eq_some hm
    split_ifs at hu with hkeep hquarantined
    · cases hu
      exact h
    · cases hu
      have hstate : m.state ≠ .processing := by
        intro hp
        rcases hb with rfl | hb
        · exact hkeep ⟨hp, rfl⟩
        · exact hb m (Table.find_eq_some.mpr ⟨hm, hid⟩) hp
      exact h.setManifest hm rfl rfl (.inl rfl)
        (.inr fun t ht hp => h.not_processing hm hstate t ht hp)

theorem Uploads.InStep.insertSession (h : u.InStep) {a : ValidatedArtifact} {manifestId id : Uuid}
    {now : Nat} (hu : u.insertSession a manifestId id now = some u') : u'.InStep := by
  obtain ⟨t, -, hactive, -, hmem, hmanifests, -, m, hm, hcolumns⟩ := insertSession_eq_some hu
  refine ⟨fun x hx ho => ?_, fun x hx hp y hy hid => ?_⟩
  · rw [hmanifests]
    rcases (hmem x).mp hx with rfl | hx
    · exact ⟨m, hm, hcolumns⟩
    · exact h.carried x hx ho
  · rw [hmanifests] at hy
    rcases (hmem x).mp hx with rfl | hx
    · rw [hactive] at hp
      cases hp
    · exact h.processing x hx hp y hy hid

theorem Uploads.InStep.enqueueArtifactIndex (h : u.InStep) {session : Session}
    (hs : u.Has session) (hu : u.enqueueArtifactIndex session = some u') : u'.InStep := by
  obtain ⟨t, m, ht, hid, hcompleting, hm, hmid, hproject, hident, rfl⟩ :=
    enqueueArtifactIndex_eq_some hu
  obtain ⟨t', ht', hsame⟩ := hs
  obtain rfl := IndexedTable.eq_of_key_eq ht' ht (hsame.1.trans hid.symm)
  let m' : ManifestArtifact := { m with state := .processing, debugImage := none }
  have hmanifest := h.setManifest (m := m') hm rfl rfl (.inl rfl) (.inl rfl)
  refine hmanifest.startIndexing (o := rfl) ht fun x hx hxid => ?_
  rcases (mem_setManifest (m := m') hm rfl).mp hx with ⟨-, hne⟩ | rfl
  · exact absurd (hxid.trans (hsame.2.2.1.trans hmid.symm)) hne
  · rfl

theorem Uploads.InStep.endArtifact (h : u.InStep) {artifact : Session} (ha : u.Has artifact)
    {session : SessionState} {manifest : ManifestState} {image : Option Uuid}
    (hclosed : session.isOpen = false)
    (hu : u.endArtifact artifact session manifest image = some u') : u'.InStep := by
  obtain ⟨t, m, ht, hid, hs, -, hm, hmid, rfl⟩ := endArtifact_eq_some hu
  obtain ⟨t', ht', hsame⟩ := ha
  obtain rfl := IndexedTable.eq_of_key_eq ht' ht (hsame.1.trans hid.symm)
  let m' : ManifestArtifact := { m with state := manifest, debugImage := image }
  exact h.endIndexing (m := m') ht hs hm rfl rfl rfl (hmid.trans hsame.2.2.1.symm) hclosed

theorem Uploads.InStep.failArtifact (h : u.InStep) {projectId uploadId : Uuid} {code : String}
    (hu : u.failArtifact projectId uploadId code = some u') : u'.InStep := by
  obtain ⟨t, m, ht, -, hs, hm, hmid, rfl⟩ := failArtifact_eq_some hu
  let m' : ManifestArtifact := { m with state := .quarantined code, debugImage := none }
  have hclosed : (SessionState.failed code).isOpen = false := rfl
  exact h.endIndexing (m := m') ht hs hm rfl rfl rfl hmid hclosed

theorem Uploads.InStep.congr (h : u.InStep) (hs : u'.sessions = u.sessions)
    (hm : u'.manifests = u.manifests) : u'.InStep :=
  ⟨hs ▸ hm ▸ h.carried, hs ▸ hm ▸ h.processing⟩

theorem Uploads.InStep.publishArtifact (h : u.InStep) {artifact : Session} (ha : u.Has artifact)
    {objectId imageId : Uuid} {key : ObjectKey}
    (hu : u.publishArtifact artifact objectId imageId = some (u', key)) : u'.InStep := by
  obtain ⟨v, w, o, image, ho, hi, hx, -⟩ := publishArtifact_eq_some hu
  obtain ⟨-, -, hvs, hvm, -⟩ := upsertObject_eq_some ho
  obtain ⟨hws, hwm, -⟩ := upsertImage_eq_some hi
  have hsessions := hws.trans hvs
  exact (h.congr hsessions (hwm.trans hvm)).endArtifact (by rwa [Uploads.Has, hsessions]) rfl hx

end rows

/-! ## Steps -/

/-- The row that a negotiation is about to mark whatever its state. -/
def NegotiationStep.marks : NegotiationStep → Option Uuid
  | .markAvailable m _ | .markMismatch m => some m
  | _ => none

/-- A negotiation marks no row that an index job is working on. -/
def LeavesIndexing (s : State) : Action → Prop
  | .negotiate id _ _ => ∀ n ∈ s.negotiations.find id, ∀ m ∈ n.step.marks,
    ∀ r ∈ s.uploads.manifests.find m, r.state ≠ .processing
  | _ => True

instance (s : State) : DecidablePred (LeavesIndexing s) := fun action => by
  cases action <;> unfold LeavesIndexing <;> infer_instance

section steps
variable {s s' : State}

theorem Uploads.InStep.negotiateNext (h : s.uploads.InStep) {a : ValidatedArtifact} {newId : Uuid}
    {image : Option Uuid} {n : NegotiationStep} {next : Option NegotiationStep}
    (hb : ∀ m ∈ n.marks, ∀ r ∈ s.uploads.manifests.find m, r.state ≠ .processing)
    (hs : SymbolUpload.negotiateNext s a newId image n = some (s', next)) : s'.uploads.InStep := by
  cases states_negotiateNext hs with
  | reads => exact h
  | upserts hu => exact h.tryUpsert hu
  | retires t =>
    rw [abortMultipart_uploads]
    exact h.abort t
  | marks hn hu => exact h.markManifestAvailable (hb _ (congrArg NegotiationStep.marks hn)) hu
  | updates hn hu =>
    refine h.updateManifestState (hn.imp_right fun hn => ?_) hu
    exact hb _ (congrArg NegotiationStep.marks hn)
  | inserts hu => exact h.insertSession hu

theorem Uploads.InStep.negotiate (h : s.uploads.InStep) {id newId : Uuid} {image : Option Uuid}
    (hb : LeavesIndexing s (.negotiate id newId image))
    (hs : SymbolUpload.negotiate s id newId image = some s') : s'.uploads.InStep := by
  obtain ⟨n, u, next, hn, hu, -, huploads, -⟩ := negotiate_eq_some hs
  rw [huploads]
  exact h.negotiateNext (hb n hn) hu

/-- An attempt that has loaded an artifact ends a session that the rows have. -/
theorem State.Known.has_loaded (hk : s.Known) {token : Uuid} {a : IndexAttempt} {artifact : Session}
    {verified : Bool} (ha : s.attempts.find token = some a) (hstep : a.step = .loaded artifact verified) :
    s.uploads.Has artifact :=
  (hk.attempts a (Table.find_eq_some.mp ha).1 artifact (by rw [hstep]; rfl)).1

theorem failed_isOpen (code : String) : (SessionState.failed code).isOpen = false := rfl

theorem Uploads.InStep.step (h : s.uploads.InStep) (hk : s.Known) {action : Action}
    (hb : LeavesIndexing s action) (hs : SymbolUpload.step s action = some s') :
    s'.uploads.InStep := by
  rcases writes_step hs with ⟨id, artifact, rfl⟩ | ⟨id, newId, image, rfl⟩ | ⟨-, hwrites⟩
  · have hn : startNegotiation s id artifact = some s' := hs
    unfold SymbolUpload.startNegotiation at hn
    split_ifs at hn
    cases hn
    exact h
  · exact h.negotiate hb hs
  · cases hwrites with
    | keeps hu => exact hu ▸ h
    | begins hu => exact hu ▸ h.moveSession (o := rfl) (by rintro ⟨⟩)
    | enqueues hc hstep hu =>
      have hknows := hk.completions _ hc
      rw [hstep] at hknows
      exact h.enqueueArtifactIndex (hknows _ rfl).1 hu
    | publishes ha hstep hu => exact h.publishArtifact (hk.has_loaded ha hstep) hu
    | rejects ha hstep hu => exact h.endArtifact (hk.has_loaded ha hstep) (failed_isOpen _) hu
    | fails hu => exact h.failArtifact hu

/-! ## What an index job can do -/

/-- The manifest row of a session that is being indexed. -/
theorem Uploads.InStep.manifest_processing {u : Uploads} (h : u.InStep) {t : Session}
    (ht : t ∈ u.sessions) (hs : t.state = .processing) :
    ∃ m, u.manifest t.projectId t.manifestId = some m ∧ m.state = .processing ∧
      m.identity = t.identity := by
  obtain ⟨m, hm, hid, hproject, hident⟩ := h.carried t ht (Session.isOpen_of_eq hs rfl)
  exact ⟨m, hid ▸ hproject ▸ manifest_of_mem hm, h.processing t ht hs m hm hid, hident⟩

theorem Uploads.InStep.endArtifact_isSome {u : Uploads} (h : u.InStep) {t artifact : Session}
    (ht : t ∈ u.sessions) (hs : t.state = .processing) (hsame : t.SameUpload artifact)
    (session : SessionState) (manifest : ManifestState) (image : Option Uuid) :
    (u.endArtifact artifact session manifest image).isSome := by
  obtain ⟨m, hm, hmp, hident⟩ := h.manifest_processing ht hs
  obtain ⟨hid, hproject, hmid, hti⟩ := hsame
  rw [hproject, hmid] at hm
  have hsession : u.session artifact.projectId artifact.id = some t := hproject ▸ hid ▸ session_of_mem ht
  unfold Uploads.endArtifact
  rw [hm, hsession, Option.bind_eq_bind, Option.bind_eq_bind, Option.bind_some, Option.bind_some,
    if_pos ⟨hmp, hident.trans hti, hs, hti⟩]
  rfl

theorem Uploads.InStep.failArtifact_isSome {u : Uploads} (h : u.InStep) {t : Session}
    (ht : t ∈ u.sessions) (hs : t.state = .processing) (code : String) :
    (u.failArtifact t.projectId t.id code).isSome := by
  obtain ⟨m, hm, hmp, -⟩ := h.manifest_processing ht hs
  unfold Uploads.failArtifact
  rw [session_of_mem ht, Option.bind_eq_bind, Option.bind_some, hm, Option.bind_eq_bind,
    Option.bind_some, if_pos ⟨hs, hmp⟩]
  rfl

end steps
end FaultLane.SymbolUpload
