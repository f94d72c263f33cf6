import FaultLane.SymbolUploadRuns

set_option autoImplicit false

/-!
# How the rows of uploads evolve

A session keeps its columns, and its state once it is closed. A new object is named after
the session that its transaction completes.
-/
namespace FaultLane.SymbolUpload
open KeyedTable JobQueue

/-- The columns that no statement changes. -/
def Session.SameUpload (s t : Session) : Prop :=
  s.id = t.id ∧ s.projectId = t.projectId ∧ s.manifestId = t.manifestId ∧ s.identity = t.identity

theorem Session.SameUpload.refl (s : Session) : s.SameUpload s := ⟨rfl, rfl, rfl, rfl⟩

theorem Session.SameUpload.trans {s t w : Session} (h : s.SameUpload t) (h' : t.SameUpload w) :
    s.SameUpload w :=
  ⟨h.1.trans h'.1, h.2.1.trans h'.2.1, h.2.2.1.trans h'.2.2.1, h.2.2.2.trans h'.2.2.2⟩

def Uploads.Has (u : Uploads) (artifact : Session) : Prop :=
  ∃ t ∈ u.sessions, t.SameUpload artifact

/-- The object is stored under the key of a completed session, with its checksum. -/
def Uploads.Names (u : Uploads) (o : ArtifactObject) : Prop :=
  ∃ t ∈ u.sessions, t.objectKey = o.objectKey ∧ t.state = .completed ∧ t.identity.checksum = o.checksum

structure Uploads.Evolves (u u' : Uploads) : Prop where
  sessions : ∀ t ∈ u.sessions, ∃ t' ∈ u'.sessions, t'.SameUpload t ∧ (¬ t.isOpen → t'.state = t.state)
  objects : ∀ o ∈ u'.objects, o ∈ u.objects ∨ u'.Names o

section
variable {u u' u'' : Uploads}

theorem Uploads.Evolves.of_eq (hs : u'.sessions = u.sessions) (ho : u'.objects = u.objects) :
    u.Evolves u' where
  sessions t ht := ⟨t, hs ▸ ht, .refl t, fun _ => rfl⟩
  objects _ h := .inl (ho ▸ h)

theorem Uploads.Evolves.refl (u : Uploads) : u.Evolves u := .of_eq rfl rfl

theorem Uploads.Evolves.names (h : u.Evolves u') {o : ArtifactObject} (ho : u.Names o) :
    u'.Names o := by
  obtain ⟨t, ht, hkey, hstate, hsum⟩ := ho
  obtain ⟨t', ht', hsame, hfinal⟩ := h.sessions t ht
  have hclosed : ¬ t.isOpen := by
    intro hopen
    rw [Session.isOpen, hstate] at hopen
    cases hopen
  exact ⟨t', ht', hsame.1.trans hkey, (hfinal hclosed).trans hstate,
    (congrArg ArtifactIdentity.checksum hsame.2.2.2).trans hsum⟩

theorem Uploads.Evolves.has (h : u.Evolves u') {artifact : Session} (ha : u.Has artifact) :
    u'.Has artifact := by
  obtain ⟨t, ht, hsame⟩ := ha
  obtain ⟨t', ht', hsame', -⟩ := h.sessions t ht
  exact ⟨t', ht', hsame'.trans hsame⟩

theorem Uploads.Evolves.trans (h : u.Evolves u') (h' : u'.Evolves u'') : u.Evolves u'' where
  sessions t ht := by
    obtain ⟨t', ht', hsame, hfinal⟩ := h.sessions t ht
    obtain ⟨t'', ht'', hsame', hfinal'⟩ := h'.sessions t' ht'
    refine ⟨t'', ht'', hsame'.trans hsame, fun hclosed => ?_⟩
    have hstate := hfinal hclosed
    have hclosed' : ¬ t'.isOpen := by rwa [Session.isOpen, hstate]
    exact (hfinal' hclosed').trans hstate
  objects o ho := by
    rcases h'.objects o ho with ho | ho
    · rcases h.objects o ho with ho | ho
      · exact .inl ho
      · exact .inr (h'.names ho)
    · exact .inr ho

/-! ## Rows after a statement -/

theorem mem_setManifest {m₀ m x : ManifestArtifact} (hm : m₀ ∈ u.manifests) (hid : m.id = m₀.id) :
    x ∈ (u.setManifest m).manifests ↔ (x ∈ u.manifests ∧ x.id ≠ m.id) ∨ x = m := by
  have hf : u.manifests.find m.id = some m₀ := Table.find_eq_some.mpr ⟨hm, hid.symm⟩
  have heq : { m with id := m₀.id } = m := by
    cases m
    cases hid
    rfl
  simp only [Uploads.setManifest, Table.mem_modify, hf, Option.some.injEq, exists_eq_left', heq]

theorem mem_moveSession {id : Uuid} {source target : SessionState} {h : source.isOpen} {x : Session} :
    x ∈ (u.moveSession id source target h).sessions ↔
      (x ∈ u.sessions ∧ ¬ (x.id = id ∧ x.state = source)) ∨
        ∃ t ∈ u.sessions, t.id = id ∧ t.state = source ∧ x = { t with state := target } := by
  simp only [Uploads.moveSession, IndexedTable.mem_modify]
  constructor
  · rintro (⟨hx, hne⟩ | ⟨t, ht, rfl⟩)
    · exact .inl ⟨hx, fun hc => hne hc.1⟩
    · obtain ⟨ht, hid⟩ := IndexedTable.find_eq_some.mp ht
      split
      · next hs => exact .inr ⟨t, ht, hid, hs, rfl⟩
      · next hs => exact .inl ⟨ht, fun hc => hs hc.2⟩
  · rintro (⟨hx, hne⟩ | ⟨t, ht, hid, hs, rfl⟩)
    · by_cases hid : x.id = id
      · refine .inr ⟨x, IndexedTable.find_eq_some.mpr ⟨hx, hid⟩, (if_neg fun hs => ?_).symm⟩
        exact hne ⟨hid, hs⟩
      · exact .inl ⟨hx, hid⟩
    · exact .inr ⟨t, IndexedTable.find_eq_some.mpr ⟨ht, hid⟩, (if_pos hs).symm⟩

theorem evolves_moveSession {id : Uuid} {source target : SessionState} {h : source.isOpen} :
    u.Evolves (u.moveSession id source target h) where
  sessions t ht := by
    by_cases hmove : t.id = id ∧ t.state = source
    · refine ⟨_, mem_moveSession.mpr (.inr ⟨t, ht, hmove.1, hmove.2, rfl⟩), ⟨rfl, rfl, rfl, rfl⟩,
        fun hclosed => absurd ?_ hclosed⟩
      exact (congrArg SessionState.isOpen hmove.2).trans h
    · exact ⟨t, mem_moveSession.mpr (.inl ⟨ht, hmove⟩), .refl t, fun _ => rfl⟩
  objects _ ho := .inl ho

theorem evolves_setManifest {m : ManifestArtifact} : u.Evolves (u.setManifest m) := .of_eq rfl rfl

theorem session_eq_some {projectId id : Uuid} {t : Session} (h : u.session projectId id = some t) :
    t ∈ u.sessions ∧ t.id = id ∧ t.projectId = projectId := by
  obtain ⟨hf, hp⟩ := Option.filter_eq_some_iff.mp h
  obtain ⟨ht, hid⟩ := IndexedTable.find_eq_some.mp hf
  exact ⟨ht, hid, of_decide_eq_true hp⟩

theorem manifest_eq_some {projectId id : Uuid} {m : ManifestArtifact}
    (h : u.manifest projectId id = some m) :
    m ∈ u.manifests ∧ m.id = id ∧ m.projectId = projectId := by
  obtain ⟨hf, hp⟩ := Option.filter_eq_some_iff.mp h
  obtain ⟨hm, hid⟩ := Table.find_eq_some.mp hf
  exact ⟨hm, hid, of_decide_eq_true hp⟩

theorem session_of_mem {t : Session} (ht : t ∈ u.sessions) : u.session t.projectId t.id = some t :=
  Option.filter_eq_some_iff.mpr ⟨IndexedTable.find_eq_some.mpr ⟨ht, rfl⟩, decide_eq_true rfl⟩

theorem manifest_of_mem {m : ManifestArtifact} (hm : m ∈ u.manifests) :
    u.manifest m.projectId m.id = some m :=
  Option.filter_eq_some_iff.mpr ⟨Table.find_eq_some.mpr ⟨hm, rfl⟩, decide_eq_true rfl⟩

theorem sessionWhere_eq_none {p : Session → Prop} [DecidablePred p] (h : u.sessionWhere p = none) :
    ∀ t ∈ u.sessions, ¬ p t := fun t ht => by
  simpa using List.find?_eq_none.mp h t ht

/-! ## Statements -/

theorem evolves_tryUpsert {a : ValidatedArtifact} {newId manifestId : Uuid}
    (h : u.tryUpsertManifestArtifact a newId = .written manifestId u') : u.Evolves u' := by
  unfold Uploads.tryUpsertManifestArtifact at h
  split at h
  · split_ifs at h
    cases h
    exact .of_eq rfl rfl
  · split_ifs at h
    cases h
    exact evolves_setManifest

theorem evolves_abort (t : Option Session) : u.Evolves (u.abort t).1 := by
  cases t with
  | none => exact .refl u
  | some t => exact evolves_moveSession (h := rfl)

theorem evolves_markManifestAvailable {projectId manifestId image : Uuid}
    (h : u.markManifestAvailable projectId manifestId image = some u') : u.Evolves u' := by
  obtain ⟨m, -, h⟩ := Option.bind_eq_some_iff.mp h
  cases h
  exact evolves_setManifest

theorem evolves_updateManifestState {projectId manifestId : Uuid} {state : ManifestState}
    (h : u.updateManifestState projectId manifestId state = some u') : u.Evolves u' := by
  unfold Uploads.updateManifestState at h
  split at h
  · split_ifs at h
    cases h
    exact .refl u
  · split_ifs at h
    · cases h
      exact .refl u
    · cases h
      exact evolves_setManifest

/-- A new session is an active one of a manifest row that has its columns. -/
theorem insertSession_eq_some {a : ValidatedArtifact} {manifestId id : Uuid} {now : Nat}
    (h : u.insertSession a manifestId id now = some u') :
    ∃ t : Session, t.id = id ∧ t.state = .active ∧ u.sessions.find id = none ∧
      (∀ x, x ∈ u'.sessions ↔ x = t ∨ x ∈ u.sessions) ∧ u'.manifests = u.manifests ∧
      u'.objects = u.objects ∧
      ∃ m ∈ u.manifests, m.id = t.manifestId ∧ m.projectId = t.projectId ∧
        m.identity = t.identity := by
  obtain ⟨m, hm, h⟩ := Option.bind_eq_some_iff.mp h
  split_ifs at h with hcolumns
  obtain ⟨sessions, hs, h⟩ := Option.bind_eq_some_iff.mp h
  cases h
  obtain ⟨hm, hid, hproject⟩ := manifest_eq_some hm
  obtain ⟨hnew, hmem⟩ := IndexedTable.insert_eq_some hs
  exact ⟨⟨id, a.projectId, manifestId, a.identity, .active, now + sessionSeconds⟩, rfl, rfl, hnew,
    hmem, rfl, rfl, m, hm, hid, hproject, hcolumns.2.2⟩

theorem evolves_insertSession {a : ValidatedArtifact} {manifestId id : Uuid} {now : Nat}
    (h : u.insertSession a manifestId id now = some u') : u.Evolves u' := by
  obtain ⟨t, -, -, -, hmem, -, hobjects, -⟩ := insertSession_eq_some h
  exact ⟨fun x hx => ⟨x, (hmem x).mpr (.inr hx), .refl x, fun _ => rfl⟩,
    fun o ho => .inl (hobjects ▸ ho)⟩

theorem enqueueArtifactIndex_eq_some {session : Session}
    (h : u.enqueueArtifactIndex session = some u') :
    ∃ t m, t ∈ u.sessions ∧ t.id = session.id ∧ t.state = .completing ∧ m ∈ u.manifests ∧
      m.id = session.manifestId ∧ m.projectId = session.projectId ∧
      m.identity = session.identity ∧
      u' = (u.moveSession t.id .completing .processing rfl).setManifest
        { m with state := .processing, debugImage := none } := by
  obtain ⟨t, ht, h⟩ := Option.bind_eq_some_iff.mp h
  obtain ⟨m, hm, h⟩ := Option.bind_eq_some_iff.mp h
  split_ifs at h with hguard
  cases h
  obtain ⟨ht, hid, -⟩ := session_eq_some ht
  obtain ⟨hm, hmid, hproject⟩ := manifest_eq_some hm
  exact ⟨t, m, ht, hid, hguard.1, hm, hmid, hproject, hguard.2, rfl⟩

theorem evolves_enqueueArtifactIndex {session : Session}
    (h : u.enqueueArtifactIndex session = some u') : u.Evolves u' := by
  obtain ⟨t, m, -, -, -, -, -, -, -, rfl⟩ := enqueueArtifactIndex_eq_some h
  exact evolves_moveSession.trans evolves_setManifest

theorem upsertObject_eq_some {artifact : Session} {id : Uuid} {o : ArtifactObject}
    (h : u.upsertObject artifact id = some (u', o)) :
    o.checksum = artifact.identity.checksum ∧ o ∈ u'.objects ∧ u'.sessions = u.sessions ∧
      u'.manifests = u.manifests ∧
      ((u' = u ∧ o ∈ u.objects) ∨
        (o.objectKey = artifact.objectKey ∧ o.byteSize = artifact.identity.byteSize ∧
          ∀ x, x ∈ u'.objects ↔ x = o ∨ x ∈ u.objects)) := by
  unfold Uploads.upsertObject at h
  split at h
  · next hf =>
    cases h
    obtain ⟨ho, hsum⟩ := Table.find_eq_some.mp hf
    exact ⟨hsum, ho, rfl, rfl, .inl ⟨rfl, ho⟩⟩
  · next hf =>
    dsimp only at h
    split_ifs at h
    cases h
    exact ⟨rfl, (Table.mem_insert hf).mpr (.inl rfl), rfl, rfl,
      .inr ⟨rfl, rfl, fun x => Table.mem_insert hf⟩⟩

theorem upsertImage_eq_some {artifact : Session} {o : ArtifactObject} {id image : Uuid}
    (h : u.upsertImage artifact o id = some (u', image)) :
    u'.sessions = u.sessions ∧ u'.manifests = u.manifests ∧ u'.objects = u.objects := by
  unfold Uploads.upsertImage at h
  dsimp only at h
  split at h
  · cases h
    exact ⟨rfl, rfl, rfl⟩
  · split_ifs at h
    cases h
    exact ⟨rfl, rfl, rfl⟩

theorem endArtifact_eq_some {artifact : Session} {session : SessionState} {manifest : ManifestState}
    {image : Option Uuid} (h : u.endArtifact artifact session manifest image = some u') :
    ∃ t m, t ∈ u.sessions ∧ t.id = artifact.id ∧ t.state = .processing ∧
      t.identity = artifact.identity ∧ m ∈ u.manifests ∧ m.id = artifact.manifestId ∧
      u' = (u.moveSession t.id .processing session rfl).setManifest
        { m with state := manifest, debugImage := image } := by
  obtain ⟨m, hm, h⟩ := Option.bind_eq_some_iff.mp h
  obtain ⟨t, ht, h⟩ := Option.bind_eq_some_iff.mp h
  split_ifs at h with hguard
  cases h
  obtain ⟨ht, hid, -⟩ := session_eq_some ht
  obtain ⟨hm, hmid, -⟩ := manifest_eq_some hm
  exact ⟨t, m, ht, hid, hguard.2.2.1, hguard.2.2.2, hm, hmid, rfl⟩

theorem failArtifact_eq_some {projectId uploadId : Uuid} {code : String}
    (h : u.failArtifact projectId uploadId code = some u') :
    ∃ t m, t ∈ u.sessions ∧ t.id = uploadId ∧ t.state = .processing ∧ m ∈ u.manifests ∧
      m.id = t.manifestId ∧
      u' = (u.moveSession t.id .processing (.failed code) rfl).setManifest
        { m with state := .quarantined code, debugImage := none } := by
  obtain ⟨t, ht, h⟩ := Option.bind_eq_some_iff.mp h
  obtain ⟨m, hm, h⟩ := Option.bind_eq_some_iff.mp h
  split_ifs at h with hguard
  cases h
  obtain ⟨ht, hid, -⟩ := session_eq_some ht
  obtain ⟨hm, hmid, -⟩ := manifest_eq_some hm
  exact ⟨t, m, ht, hid, hguard.1, hm, hmid, rfl⟩

theorem evolves_endArtifact {artifact : Session} {session : SessionState} {manifest : ManifestState}
    {image : Option Uuid} (h : u.endArtifact artifact session manifest image = some u') :
    u.Evolves u' := by
  obtain ⟨t, m, -, -, -, -, -, -, rfl⟩ := endArtifact_eq_some h
  exact evolves_moveSession.trans evolves_setManifest

theorem evolves_failArtifact {projectId uploadId : Uuid} {code : String}
    (h : u.failArtifact projectId uploadId code = some u') : u.Evolves u' := by
  obtain ⟨t, m, -, -, -, -, -, rfl⟩ := failArtifact_eq_some h
  exact evolves_moveSession.trans evolves_setManifest

/-- The three parts of a publication, over the same rows. -/
theorem publishArtifact_eq_some {artifact : Session} {objectId imageId : Uuid} {key : ObjectKey}
    (h : u.publishArtifact artifact objectId imageId = some (u', key)) :
    ∃ v w o image, u.upsertObject artifact objectId = some (v, o) ∧
      v.upsertImage artifact o imageId = some (w, image) ∧
      w.endArtifact artifact .completed .available (some image) = some u' ∧ key = o.objectKey := by
  obtain ⟨⟨v, o⟩, ho, h⟩ := Option.bind_eq_some_iff.mp h
  obtain ⟨⟨w, image⟩, hi, h⟩ := Option.bind_eq_some_iff.mp h
  obtain ⟨x, hx, h⟩ := Option.bind_eq_some_iff.mp h
  cases h
  exact ⟨v, w, o, image, ho, hi, hx, rfl⟩

theorem evolves_publishArtifact {artifact : Session} {objectId imageId : Uuid} {key : ObjectKey}
    (h : u.publishArtifact artifact objectId imageId = some (u', key)) : u.Evolves u' := by
  obtain ⟨v, w, o, image, ho, hi, hx, -⟩ := publishArtifact_eq_some h
  obtain ⟨hsum, hov, hvs, -, hv⟩ := upsertObject_eq_some ho
  obtain ⟨hws, -, hwo⟩ := upsertImage_eq_some hi
  have hend := evolves_endArtifact hx
  refine ⟨fun t ht => hend.sessions t (hws.symm ▸ hvs.symm ▸ ht), fun x hxo => ?_⟩
  rcases hend.objects x hxo with hxw | hnamed
  · rw [hwo] at hxw
    rcases hv with ⟨rfl, -⟩ | ⟨hkey, -, hmem⟩
    · exact .inl hxw
    · rcases (hmem x).mp hxw with rfl | hxu
      · obtain ⟨t, m, ht, hid, hstate, hident, hm, hmid, rfl⟩ := endArtifact_eq_some hx
        refine .inr ⟨{ t with state := .completed }, ?_, ?_, rfl, ?_⟩
        · exact (mem_moveSession (h := rfl)).mpr (.inr ⟨t, ht, rfl, hstate, rfl⟩)
        · exact hid.trans hkey.symm
        · exact (congrArg ArtifactIdentity.checksum hident).trans hsum.symm
      · exact .inl hxu
  · exact .inr hnamed

end
end FaultLane.SymbolUpload
