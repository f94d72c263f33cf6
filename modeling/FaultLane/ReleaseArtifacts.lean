import FaultLane.SymbolRenegotiation
import Mathlib.Data.List.ProdSigma

set_option autoImplicit false

/-!
# The artifacts of a release

The manifest rows of a release that have their object, and the runs along which two PDBs of
one release with one debug identifier are one object.
-/
namespace FaultLane.SymbolUpload
open KeyedTable JobQueue TransitionSystem CrashSymbols

/-- The image of a manifest row is available, and its object is stored. -/
def Uploads.Backs (u : Uploads) (m : ManifestArtifact) (o : ArtifactObject) : Prop :=
  o.lifecycle = .stored ∧ ∃ d ∈ u.images.rows, m.debugImage = some d.id ∧
    d.status = .available ∧ d.objectId = o.id

instance (u : Uploads) (m : ManifestArtifact) (o : ArtifactObject) : Decidable (u.Backs m o) := by
  unfold Uploads.Backs
  infer_instance

/-- The select of `materialize_symbols`. -/
def Uploads.releaseArtifacts (u : Uploads) (projectId releaseId : Uuid) :
    List (ManifestArtifact × ArtifactObject) :=
  (u.manifests.rows.product u.objects.rows).filter fun p =>
    p.1.releaseId = releaseId ∧ p.1.projectId = projectId ∧ p.1.state = .available ∧
      u.Backs p.1 p.2

/-- Two PDBs of a release with one debug identifier have one content. -/
def Uploads.Apart (u : Uploads) : Prop :=
  ∀ projectId releaseId, ∀ p ∈ u.releaseArtifacts projectId releaseId,
    ∀ q ∈ u.releaseArtifacts projectId releaseId, p.1.identity.artifactType = .pdb →
      q.1.identity.artifactType = .pdb → p.1.identity.debugId = q.1.identity.debugId →
        p.2.checksum = q.2.checksum

/-- No other PDB of the release has the row's debug identifier and another content. -/
def Uploads.Admits (u : Uploads) (m : ManifestArtifact) (checksum : Checksum) : Prop :=
  m.identity.artifactType = .pdb → ∀ p ∈ u.releaseArtifacts m.projectId m.releaseId,
    p.1.id ≠ m.id → p.1.identity.artifactType = .pdb →
      p.1.identity.debugId = m.identity.debugId → p.2.checksum = checksum

instance (u : Uploads) (m : ManifestArtifact) (checksum : Checksum) :
    Decidable (u.Admits m checksum) := by
  unfold Uploads.Admits
  infer_instance

/-- The row and the image of a negotiation that is about to mark the row available. -/
def NegotiationStep.marked : NegotiationStep → Option (Uuid × Uuid)
  | .markAvailable manifestId image => some (manifestId, image)
  | _ => none

/-- A row becomes available only where its release admits its content. -/
def KeepsApart (s : State) : Action → Prop
  | .negotiate id _ _ => ∀ n ∈ s.negotiations.find id, ∀ p ∈ n.step.marked,
    ∀ m ∈ s.uploads.manifest n.artifact.projectId p.1, ∀ d ∈ s.uploads.images.find p.2,
      ∀ o ∈ s.uploads.objects.rows, o.id = d.objectId → s.uploads.Admits m o.checksum
  | .publishArtifact token _ _ => ∀ a ∈ s.attempts.find token, ∀ artifact ∈ a.step.artifact,
    ∀ m ∈ s.uploads.manifest artifact.projectId artifact.manifestId,
      s.uploads.Admits m artifact.identity.checksum
  | _ => True

instance (s : State) : DecidablePred (KeepsApart s) := fun action => by
  induction action using Action.casesOn <;> unfold KeepsApart <;> infer_instance

/-! ## Foreign keys -/

structure Uploads.Linked (u : Uploads) : Prop where
  objects : ∀ o ∈ u.objects, ∀ x ∈ u.objects, o.id = x.id → o = x
  images : ∀ d ∈ u.images, ∃ o ∈ u.objects, o.id = d.objectId
  available : ∀ d ∈ u.images, d.status = .available
  manifests : ∀ m ∈ u.manifests, ∀ image ∈ m.debugImage, ∃ d ∈ u.images, d.id = image

/-- Each row that changes loses its image. -/
structure Uploads.Fades (u u' : Uploads) : Prop where
  images : u'.images = u.images
  objects : u'.objects = u.objects
  manifests : ∀ m ∈ u'.manifests, m ∈ u.manifests ∨ (m.debugImage = none ∧ m.state ≠ .available)

section rows
variable {u u' : Uploads}

theorem mem_releaseArtifacts {projectId releaseId : Uuid} {m : ManifestArtifact}
    {o : ArtifactObject} : (m, o) ∈ u.releaseArtifacts projectId releaseId ↔
      m ∈ u.manifests ∧ o ∈ u.objects ∧ m.releaseId = releaseId ∧ m.projectId = projectId ∧
        m.state = .available ∧ u.Backs m o := by
  simp only [Uploads.releaseArtifacts, List.mem_filter, List.pair_mem_product, Table.mem_rows,
    decide_eq_true_eq, and_assoc]

theorem Uploads.Fades.of_eq (hi : u'.images = u.images) (ho : u'.objects = u.objects)
    (hm : u'.manifests = u.manifests) : u.Fades u' :=
  ⟨hi, ho, fun _ h => .inl (hm ▸ h)⟩

theorem Uploads.Fades.refl (u : Uploads) : u.Fades u := .of_eq rfl rfl rfl

theorem Uploads.Fades.setManifest {v : Uploads} (hi : v.images = u.images)
    (ho : v.objects = u.objects) (hv : v.manifests = u.manifests) {m₀ m : ManifestArtifact}
    (hm : m₀ ∈ v.manifests) (hid : m.id = m₀.id) (hnone : m.debugImage = none)
    (hstate : m.state ≠ .available) : u.Fades (v.setManifest m) where
  images := hi
  objects := ho
  manifests x hx := by
    rcases (mem_setManifest hm hid).mp hx with ⟨hx, -⟩ | rfl
    · exact .inl (hv ▸ hx)
    · exact .inr ⟨hnone, hstate⟩

theorem Uploads.Fades.mem_releaseArtifacts (h : u.Fades u') {projectId releaseId : Uuid}
    {p : ManifestArtifact × ArtifactObject} (hp : p ∈ u'.releaseArtifacts projectId releaseId) :
    p ∈ u.releaseArtifacts projectId releaseId := by
  obtain ⟨hm, ho, hrelease, hproject, hstate, hback⟩ := SymbolUpload.mem_releaseArtifacts.mp hp
  unfold Uploads.Backs at hback
  rw [h.images] at hback
  rw [h.objects] at ho
  rcases h.manifests _ hm with hm | ⟨-, hne⟩
  · exact SymbolUpload.mem_releaseArtifacts.mpr ⟨hm, ho, hrelease, hproject, hstate, hback⟩
  · exact absurd hstate hne

theorem Uploads.Fades.apart (h : u.Fades u') (ha : u.Apart) : u'.Apart :=
  fun projectId releaseId p hp q hq =>
    ha projectId releaseId p (h.mem_releaseArtifacts hp) q (h.mem_releaseArtifacts hq)

theorem Uploads.Fades.linked (h : u.Fades u') (hl : u.Linked) : u'.Linked where
  objects := h.objects ▸ hl.objects
  images := h.images ▸ h.objects ▸ hl.images
  available := h.images ▸ hl.available
  manifests m hm image hi := by
    rw [h.images]
    rcases h.manifests m hm with hm | ⟨hnone, -⟩
    · exact hl.manifests m hm image hi
    · rw [hnone] at hi
      cases hi

/-! ## Statements that mark nothing available -/

theorem replaced_state (m : ManifestArtifact) (a : ValidatedArtifact) :
    (m.replaced a).state ≠ .available := by
  dsimp only [ManifestArtifact.replaced]
  split <;> exact nofun

theorem fades_tryUpsert {a : ValidatedArtifact} {newId manifestId : Uuid}
    (h : u.tryUpsertManifestArtifact a newId = .written manifestId u') : u.Fades u' := by
  unfold Uploads.tryUpsertManifestArtifact at h
  split at h
  · split_ifs at h with hnew
    cases h
    have hnew := Option.not_isSome_iff_eq_none.mp hnew
    refine ⟨rfl, rfl, fun m hm => ?_⟩
    rcases (Table.mem_insert hnew).mp hm with rfl | hm
    · exact .inr ⟨rfl, by rintro ⟨⟩⟩
    · exact .inl hm
  · next m hm =>
    split_ifs at h
    cases h
    have hmem : m ∈ u.manifests := List.mem_of_find?_eq_some hm
    exact .setManifest (m := m.replaced a) rfl rfl rfl hmem rfl rfl (replaced_state m a)

theorem fades_abort (t : Option Session) : u.Fades (u.abort t).1 := by
  cases t <;> exact .of_eq rfl rfl rfl

theorem fades_updateManifestState {projectId manifestId : Uuid} {state : ManifestState}
    (h : u.updateManifestState projectId manifestId state = some u')
    (hstate : state ≠ .available) : u.Fades u' := by
  unfold Uploads.updateManifestState at h
  split at h
  · split_ifs at h
    cases h
    exact .refl u
  · next m hm =>
    split_ifs at h
    · cases h
      exact .refl u
    · cases h
      exact .setManifest (m := { m with state := state, debugImage := none }) rfl rfl rfl
        (manifest_eq_some hm).1 rfl rfl hstate

theorem fades_insertSession {a : ValidatedArtifact} {manifestId id : Uuid} {now : Nat}
    (h : u.insertSession a manifestId id now = some u') : u.Fades u' := by
  obtain ⟨m, -, h⟩ := Option.bind_eq_some_iff.mp h
  split_ifs at h
  obtain ⟨sessions, -, h⟩ := Option.bind_eq_some_iff.mp h
  cases h
  exact .of_eq rfl rfl rfl

theorem fades_enqueueArtifactIndex {session : Session}
    (h : u.enqueueArtifactIndex session = some u') : u.Fades u' := by
  obtain ⟨t, m, -, -, -, hm, -, -, -, rfl⟩ := enqueueArtifactIndex_eq_some h
  exact .setManifest (u := u) (v := u.moveSession t.id .completing .processing rfl)
    (m := { m with state := .processing, debugImage := none }) rfl rfl rfl hm rfl rfl nofun

theorem fades_publishArtifactFailure {artifact : Session} {code : String} {quarantine : Bool}
    (h : u.publishArtifactFailure artifact code quarantine = some u') : u.Fades u' := by
  obtain ⟨t, m, -, -, -, -, hm, -, rfl⟩ := endArtifact_eq_some h
  let failed : ManifestState := if quarantine then .quarantined code else .mismatch
  have hfailed : failed ≠ .available := by
    dsimp only [failed]
    split <;> exact nofun
  exact .setManifest (u := u) (v := u.moveSession t.id .processing (.failed code) rfl)
    (m := { m with state := failed, debugImage := none }) rfl rfl rfl hm rfl rfl hfailed

theorem fades_failArtifact {projectId uploadId : Uuid} {code : String}
    (h : u.failArtifact projectId uploadId code = some u') : u.Fades u' := by
  obtain ⟨t, m, -, -, -, hm, -, rfl⟩ := failArtifact_eq_some h
  exact .setManifest (u := u) (v := u.moveSession t.id .processing (.failed code) rfl)
    (m := { m with state := .quarantined code, debugImage := none }) rfl rfl rfl hm rfl rfl nofun

/-! ## Statements that mark a row available -/

/-- What becomes of the rows when one of them gets an image over a content. -/
structure Uploads.Marks (u u' : Uploads) (m : ManifestArtifact) (checksum : Checksum) : Prop where
  manifests : ∀ x ∈ u'.manifests, (x ∈ u.manifests ∧ x.id ≠ m.id) ∨
    (x.identity = m.identity ∧ x.releaseId = m.releaseId ∧ x.projectId = m.projectId ∧
      ∀ o ∈ u'.objects, u'.Backs x o → o.checksum = checksum)
  backs : ∀ x ∈ u.manifests, ∀ o ∈ u'.objects, u'.Backs x o → o ∈ u.objects ∧ u.Backs x o

/-- An artifact of the release afterwards was one before, of another row, or has the content. -/
theorem Uploads.Marks.mem_releaseArtifacts {m : ManifestArtifact} {checksum : Checksum}
    (h : u.Marks u' m checksum) {projectId releaseId : Uuid}
    {p : ManifestArtifact × ArtifactObject} (hp : p ∈ u'.releaseArtifacts projectId releaseId) :
    (p ∈ u.releaseArtifacts projectId releaseId ∧ p.1.id ≠ m.id) ∨
      (p.1.identity = m.identity ∧ m.releaseId = releaseId ∧ m.projectId = projectId ∧
        p.2.checksum = checksum) := by
  obtain ⟨hm, ho, hrelease, hproject, hstate, hback⟩ := SymbolUpload.mem_releaseArtifacts.mp hp
  rcases h.manifests _ hm with ⟨hm, hne⟩ | ⟨hident, hr, hp, hsum⟩
  · obtain ⟨ho, hback⟩ := h.backs _ hm _ ho hback
    have hold := SymbolUpload.mem_releaseArtifacts.mpr ⟨hm, ho, hrelease, hproject, hstate, hback⟩
    exact .inl ⟨hold, hne⟩
  · exact .inr ⟨hident, hr.symm.trans hrelease, hp.symm.trans hproject, hsum _ ho hback⟩

theorem Uploads.Marks.apart {m : ManifestArtifact} {checksum : Checksum}
    (h : u.Marks u' m checksum) (ha : u.Apart) (hadmits : u.Admits m checksum) : u'.Apart := by
  intro projectId releaseId p hp q hq hpdb hpdb' hdebug
  rcases h.mem_releaseArtifacts hp with ⟨hp, hpne⟩ | ⟨hpi, hpr, hpp, hpsum⟩ <;>
    rcases h.mem_releaseArtifacts hq with ⟨hq, hqne⟩ | ⟨hqi, hqr, hqp, hqsum⟩
  · exact ha projectId releaseId p hp q hq hpdb hpdb' hdebug
  · subst hqr hqp
    rw [hqi] at hpdb' hdebug
    exact (hadmits hpdb' p hp hpne hpdb hdebug).trans hqsum.symm
  · subst hpr hpp
    rw [hpi] at hpdb hdebug
    exact hpsum.trans (hadmits hpdb q hq hqne hpdb' hdebug.symm).symm
  · exact hpsum.trans hqsum.symm

theorem marks_markManifestAvailable {projectId manifestId image : Uuid} {checksum : Checksum}
    (h : u.markManifestAvailable projectId manifestId image = some u')
    (hsum : ∀ d ∈ u.images.find image, ∀ o ∈ u.objects, o.id = d.objectId →
      o.checksum = checksum) :
    ∃ m ∈ u.manifest projectId manifestId, u.Marks u' m checksum := by
  obtain ⟨m, hm, h⟩ := Option.bind_eq_some_iff.mp h
  cases h
  obtain ⟨hmem, -, -⟩ := manifest_eq_some hm
  let marked : ManifestArtifact := { m with state := .available, debugImage := some image }
  refine ⟨m, hm, ⟨fun x hx => ?_, fun x _ o ho hback => ⟨ho, hback⟩⟩⟩
  rcases (mem_setManifest (m := marked) hmem rfl).mp hx with ⟨hx, hne⟩ | rfl
  · exact .inl ⟨hx, hne⟩
  · refine .inr ⟨rfl, rfl, rfl, fun o ho hback => ?_⟩
    obtain ⟨-, d, hd, himage, -, hobject⟩ := hback
    have hfind : u.images.find image = some d :=
      Table.find_eq_some.mpr ⟨hd, (Option.some.inj himage).symm⟩
    exact hsum d hfind o ho hobject.symm

theorem linked_markManifestAvailable (hl : u.Linked) {projectId manifestId image : Uuid}
    (himage : ∃ d ∈ u.images, d.id = image)
    (h : u.markManifestAvailable projectId manifestId image = some u') : u'.Linked := by
  obtain ⟨m, hm, h⟩ := Option.bind_eq_some_iff.mp h
  cases h
  obtain ⟨hmem, -, -⟩ := manifest_eq_some hm
  let marked : ManifestArtifact := { m with state := .available, debugImage := some image }
  refine ⟨hl.objects, hl.images, hl.available, fun x hx i hi => ?_⟩
  rcases (mem_setManifest (m := marked) hmem rfl).mp hx with ⟨hx, -⟩ | rfl
  · exact hl.manifests x hx i hi
  · exact Option.some.inj hi ▸ himage

/-! ## Publications -/

theorem upsertObject_fresh {artifact : Session} {id : Uuid} {o : ArtifactObject}
    (h : u.upsertObject artifact id = some (u', o)) : u'.images = u.images ∧
      (∀ x ∈ u.objects, x ∈ u'.objects) ∧
      ∀ x ∈ u'.objects, x ∈ u.objects ∨ (x = o ∧ ∀ y ∈ u.objects, y.id ≠ x.id) := by
  unfold Uploads.upsertObject at h
  split at h
  · cases h
    exact ⟨rfl, fun x hx => hx, fun x hx => .inl hx⟩
  · next hf =>
    dsimp only at h
    split_ifs at h with hfresh
    cases h
    refine ⟨rfl, fun x hx => (Table.mem_insert hf).mpr (.inr hx), fun x hx => ?_⟩
    rcases (Table.mem_insert hf).mp hx with rfl | hx
    · refine .inr ⟨rfl, fun y hy heq => hfresh (List.any_eq_true.mpr ⟨y, hy, ?_⟩)⟩
      exact decide_eq_true (Or.inr heq)
    · exact .inl hx

theorem upsertImage_fresh {artifact : Session} {o : ArtifactObject} {id image : Uuid}
    (h : u.upsertImage artifact o id = some (u', image)) :
    (∃ d ∈ u'.images, d.id = image ∧ d.objectId = o.id) ∧
      (∀ d ∈ u.images, ∃ d' ∈ u'.images, d'.id = d.id) ∧
      ∀ d ∈ u'.images, (∃ d₀ ∈ u.images, d₀.id = d.id ∧ d₀.objectId = d.objectId ∧
          (d₀.status = .available → d.status = .available)) ∨
        (d.objectId = o.id ∧ d.status = .available ∧ ∀ d₀ ∈ u.images, d₀.id ≠ d.id) := by
  unfold Uploads.upsertImage at h
  dsimp only at h
  split at h
  · next d hd =>
    cases h
    have hmem : d ∈ u.images := List.mem_of_find?_eq_some hd
    have hcolumns := List.find?_some hd
    simp only [decide_eq_true_eq] at hcolumns
    have hf : u.images.find d.id = some d := Table.find_eq_some.mpr ⟨hmem, rfl⟩
    let renewed : DebugImage := { d with status := .available }
    have hmodify : ∀ x, x ∈ u.images.modify d.id (fun d => { d with status := .available })
        (fun _ => rfl) ↔ (x ∈ u.images ∧ x.id ≠ d.id) ∨ x = renewed := by
      intro x
      simp only [Table.mem_modify, hf, Option.some.injEq, exists_eq_left', renewed]
    refine ⟨⟨renewed, (hmodify renewed).mpr (.inr rfl), rfl, hcolumns.1⟩, fun x hx => ?_,
      fun x hx => ?_⟩
    · by_cases hid : x.id = d.id
      · exact ⟨renewed, (hmodify renewed).mpr (.inr rfl), hid.symm⟩
      · exact ⟨x, (hmodify x).mpr (.inl ⟨hx, hid⟩), rfl⟩
    · rcases (hmodify x).mp hx with ⟨hx, -⟩ | rfl
      · exact .inl ⟨x, hx, rfl, rfl, fun hs => hs⟩
      · exact .inl ⟨d, hmem, rfl, rfl, fun _ => rfl⟩
  · split_ifs at h with hnew
    cases h
    have hnew := Option.not_isSome_iff_eq_none.mp hnew
    let i := artifact.identity
    let d : DebugImage :=
      ⟨id, o.id, i.artifactType, i.moduleName, i.architecture, i.debugId, i.codeId, .available⟩
    have hmem : ∀ x, x ∈ u.images.insert d ↔ x = d ∨ x ∈ u.images := fun x =>
      Table.mem_insert (a := d) hnew
    refine ⟨⟨d, (hmem d).mpr (.inl rfl), rfl, rfl⟩, fun x hx => ⟨x, (hmem x).mpr (.inr hx), rfl⟩,
      fun x hx => ?_⟩
    rcases (hmem x).mp hx with rfl | hx
    · exact .inr ⟨rfl, rfl, fun d₀ hd₀ => Table.find_eq_none.mp hnew d₀ hd₀⟩
    · exact .inl ⟨x, hx, rfl, rfl, fun hs => hs⟩

/-- No publication loses an image. -/
theorem publishArtifact_images {artifact : Session} {objectId imageId : Uuid} {key : ObjectKey}
    (h : u.publishArtifact artifact objectId imageId = some (u', key)) :
    ∀ d ∈ u.images, ∃ d' ∈ u'.images, d'.id = d.id := by
  obtain ⟨v, w, o, image, ho, hi, hx, -⟩ := publishArtifact_eq_some h
  obtain ⟨hvi, -, -⟩ := upsertObject_fresh ho
  obtain ⟨-, himages, -⟩ := upsertImage_fresh hi
  obtain ⟨t, m, -, -, -, -, -, -, rfl⟩ := endArtifact_eq_some hx
  exact hvi ▸ himages

/-- A publication keeps the foreign keys, and marks the artifact's row with its content. -/
theorem publishArtifact_marks (hl : u.Linked) {artifact : Session} {objectId imageId : Uuid}
    {key : ObjectKey} (h : u.publishArtifact artifact objectId imageId = some (u', key)) :
    u'.Linked ∧ ∃ m ∈ u.manifest artifact.projectId artifact.manifestId,
      u.Marks u' m artifact.identity.checksum := by
  obtain ⟨v, w, o, image, ho, hi, hx, -⟩ := publishArtifact_eq_some h
  obtain ⟨hsum, hov, -, hvm, -⟩ := upsertObject_eq_some ho
  obtain ⟨hvi, hkept, hfresh⟩ := upsertObject_fresh ho
  obtain ⟨-, hwm, hwo⟩ := upsertImage_eq_some hi
  obtain ⟨⟨d, hd, rfl, hdo⟩, himages, hnew⟩ := upsertImage_fresh hi
  obtain ⟨m, hm, hx⟩ := Option.bind_eq_some_iff.mp hx
  obtain ⟨t, -, hx⟩ := Option.bind_eq_some_iff.mp hx
  split_ifs at hx
  cases hx
  obtain ⟨hmem, -, -⟩ := manifest_eq_some hm
  have hm' : u.manifest artifact.projectId artifact.manifestId = some m := by
    rw [Uploads.manifest, ← hvm, ← hwm]
    exact hm
  let marked : ManifestArtifact := { m with state := .available, debugImage := some d.id }
  let x : Uploads := (w.setManifest marked).moveSession t.id .processing .completed rfl
  have hmanifests : ∀ y ∈ x.manifests, (y ∈ u.manifests ∧ y.id ≠ m.id) ∨ y = marked := by
    intro y hy
    rcases (mem_setManifest (m := marked) hmem rfl).mp hy with ⟨hy, hne⟩ | rfl
    · exact .inl ⟨hvm ▸ hwm ▸ hy, hne⟩
    · exact .inr rfl
  have hobjects : ∀ y ∈ v.objects, ∀ z ∈ v.objects, y.id = z.id → y = z := by
    intro y hy z hz hid
    rcases hfresh y hy with hy | ⟨rfl, hyf⟩ <;> rcases hfresh z hz with hz | ⟨rfl, hzf⟩
    · exact hl.objects y hy z hz hid
    · exact absurd hid (hzf y hy)
    · exact absurd hid.symm (hyf z hz)
    · rfl
  have hlinked : x.Linked := by
    refine ⟨fun y hy z hz => ?_, fun y hy => ?_, fun y hy => ?_, fun y hy i hi => ?_⟩
    · exact hobjects y (hwo ▸ hy) z (hwo ▸ hz)
    · rcases hnew y hy with ⟨d₀, hd₀, -, hobject, -⟩ | ⟨hobject, -, -⟩
      · obtain ⟨o₀, ho₀, hid⟩ := hl.images d₀ (hvi ▸ hd₀)
        exact ⟨o₀, hwo.symm ▸ hkept o₀ ho₀, hid.trans hobject⟩
      · exact ⟨o, hwo.symm ▸ hov, hobject.symm⟩
    · rcases hnew y hy with ⟨d₀, hd₀, -, -, hstatus⟩ | ⟨-, hstatus, -⟩
      · exact hstatus (hl.available d₀ (hvi ▸ hd₀))
      · exact hstatus
    · rcases hmanifests y hy with ⟨hy, -⟩ | rfl
      · obtain ⟨d₀, hd₀, hid⟩ := hl.manifests y hy i hi
        obtain ⟨d', hd', hid'⟩ := himages d₀ (hvi.symm ▸ hd₀)
        exact ⟨d', hd', hid'.trans hid⟩
      · exact ⟨d, hd, Option.some.inj hi⟩
  refine ⟨hlinked, m, hm', ⟨fun y hy => ?_, fun y hy z hz hback => ?_⟩⟩
  · rcases hmanifests y hy with hold | rfl
    · exact .inl hold
    · refine .inr ⟨rfl, rfl, rfl, fun z hz hback => ?_⟩
      obtain ⟨-, d', hd', himage, -, hobject⟩ := hback
      obtain rfl : d = d' := Table.eq_of_key_eq hd hd' (Option.some.inj himage)
      obtain rfl : z = o := hobjects z (hwo ▸ hz) o hov (hobject.symm.trans hdo)
      exact hsum
  · obtain ⟨hstored, d', hd', himage, -, hobject⟩ := hback
    obtain ⟨d₁, hd₁, hid₁⟩ := hl.manifests y hy d'.id himage
    rcases hnew d' hd' with ⟨d₀, hd₀, hid, hobject₀, -⟩ | ⟨-, -, hother⟩
    · have hd₀ : d₀ ∈ u.images := hvi ▸ hd₀
      obtain ⟨o₀, ho₀, hid₀⟩ := hl.images d₀ hd₀
      have hz : z ∈ u.objects := by
        rcases hfresh z (hwo ▸ hz) with hz | ⟨-, hzf⟩
        · exact hz
        · exact absurd (hid₀.trans (hobject₀.trans hobject)) (hzf o₀ ho₀)
      exact ⟨hz, hstored, d₀, hd₀, hid ▸ himage, hl.available d₀ hd₀, hobject₀.trans hobject⟩
    · exact absurd hid₁ (hother d₁ (hvi.symm ▸ hd₁))

end rows

/-! ## Steps -/

structure State.Linked (s : State) : Prop where
  uploads : s.uploads.Linked
  negotiations : ∀ n ∈ s.negotiations, ∀ p ∈ n.step.marked, ∃ d ∈ s.uploads.images, d.id = p.2

def State.KeptApart (s : State) : Prop := s.Linked ∧ s.uploads.Apart

section steps
variable {s s' : State}

theorem negotiateNext_fades {a : ValidatedArtifact} {newId : Uuid} {image : Option Uuid}
    {n : NegotiationStep} {next : Option NegotiationStep} (hn : n.marked = none)
    (h : negotiateNext s a newId image n = some (s', next)) :
    s.uploads.Fades s'.uploads ∧
      ∀ x ∈ next, ∀ p ∈ x.marked, ∃ d ∈ s.uploads.images, d.id = p.2 := by
  cases n with
  | upsertManifest =>
    dsimp only [negotiateNext] at h
    split at h
    · cases h
    · cases h
      exact ⟨.refl _, fun x hx => by cases hx; exact nofun⟩
    · next hu =>
      cases h
      exact ⟨fades_tryUpsert hu, fun x hx => by cases hx; exact nofun⟩
  | retireReplaced =>
    cases h
    rw [abortMultipart_uploads]
    exact ⟨fades_abort _, fun x hx => by cases hx; exact nofun⟩
  | upsertAgain =>
    dsimp only [negotiateNext] at h
    split at h
    · cases h
    · cases h
    · next hu =>
      cases h
      exact ⟨fades_tryUpsert hu, fun x hx => by cases hx; exact nofun⟩
  | findMatchingImage m =>
    dsimp only [negotiateNext] at h
    split at h <;> split_ifs at h with hfound <;> cases h
    · refine ⟨.refl _, fun x hx p hp => ?_⟩
      cases hx
      cases hp
      obtain ⟨d, hd, hid⟩ := List.mem_map.mp hfound
      exact ⟨d, (List.mem_filter.mp hd).1, hid⟩
    · exact ⟨.refl _, fun x hx => by cases hx; exact nofun⟩
  | markAvailable m image => cases hn
  | hasChecksum m =>
    cases h
    refine ⟨.refl _, fun x hx => ?_⟩
    cases hx
    split_ifs <;> exact nofun
  | markMismatch m =>
    obtain ⟨u, hu, h⟩ := Option.bind_eq_some_iff.mp h
    cases h
    exact ⟨fades_updateManifestState hu nofun, nofun⟩
  | markMissing m =>
    obtain ⟨u, hu, h⟩ := Option.bind_eq_some_iff.mp h
    cases h
    exact ⟨fades_updateManifestState hu nofun, fun x hx => by cases hx; exact nofun⟩
  | retireStale m =>
    cases h
    rw [abortMultipart_uploads]
    exact ⟨fades_abort _, fun x hx => by cases hx; exact nofun⟩
  | checkConflict m =>
    dsimp only [negotiateNext] at h
    split_ifs at h
    cases h
    exact ⟨.refl _, fun x hx => by cases hx; exact nofun⟩
  | loadActive m =>
    cases h
    refine ⟨.refl _, fun x hx => ?_⟩
    split_ifs at hx
    · cases hx
    · cases hx
      exact nofun
  | create m =>
    obtain ⟨u, hu, h⟩ := Option.bind_eq_some_iff.mp h
    cases h
    exact ⟨fades_insertSession hu, nofun⟩

/-- The negotiations after a statement of one of them. -/
theorem negotiate_next {id newId : Uuid} {image : Option Uuid}
    (h : negotiate s id newId image = some s') :
    ∃ n u next, s.negotiations.find id = some n ∧
      negotiateNext s n.artifact newId image n.step = some (u, next) ∧ s'.uploads = u.uploads ∧
      ∀ x ∈ s'.negotiations, x ∈ s.negotiations ∨ ∃ step ∈ next, x.step = step := by
  obtain ⟨n, hn, h⟩ := Option.bind_eq_some_iff.mp h
  obtain ⟨⟨u, next⟩, hu, h⟩ := Option.bind_eq_some_iff.mp h
  have hnegotiations := negotiateNext_negotiations hu
  refine ⟨n, u, next, hn, hu, ?_⟩
  cases next with
  | none =>
    cases h
    exact ⟨rfl, fun x hx => .inl (hnegotiations ▸ (Table.mem_delete.mp hx).1)⟩
  | some step =>
    cases h
    refine ⟨rfl, fun x hx => ?_⟩
    simp only [Table.mem_modify, hnegotiations] at hx
    rcases hx with ⟨hx, -⟩ | ⟨y, -, rfl⟩
    · exact .inl hx
    · exact .inr ⟨step, rfl, rfl⟩

theorem State.KeptApart.fade (h : s.KeptApart) (hf : s.uploads.Fades s'.uploads)
    (hn : ∀ n ∈ s'.negotiations, n ∈ s.negotiations ∨
      ∀ p ∈ n.step.marked, ∃ d ∈ s.uploads.images, d.id = p.2) : s'.KeptApart := by
  refine ⟨⟨hf.linked h.1.uploads, fun n hmem p hp => ?_⟩, hf.apart h.2⟩
  rw [hf.images]
  rcases hn n hmem with hold | hnew
  · exact h.1.negotiations n hold p hp
  · exact hnew p hp

theorem State.KeptApart.negotiate (h : s.KeptApart) {id newId : Uuid} {image : Option Uuid}
    (ha : KeepsApart s (.negotiate id newId image))
    (hs : SymbolUpload.negotiate s id newId image = some s') : s'.KeptApart := by
  obtain ⟨n, u, next, hn, hu, huploads, hnegotiations⟩ := negotiate_next hs
  have hmem := (Table.find_eq_some.mp hn).1
  cases hm : n.step.marked with
  | none =>
    obtain ⟨hfades, hnext⟩ := negotiateNext_fades hm hu
    refine h.fade (huploads ▸ hfades) fun x hx => ?_
    rcases hnegotiations x hx with hx | ⟨step, hstep, rfl⟩
    · exact .inl hx
    · exact .inr (hnext _ hstep)
  | some p =>
    have hadmits := ha n hn p hm
    obtain ⟨d, hd, hid⟩ := h.1.negotiations n hmem p hm
    obtain ⟨nid, artifact, step⟩ := n
    cases step with
    | markAvailable manifestId found =>
      cases hm
      obtain ⟨v, hv, hu⟩ := Option.bind_eq_some_iff.mp hu
      cases hu
      have hfind : s.uploads.images.find found = some d := Table.find_eq_some.mpr ⟨hd, hid⟩
      obtain ⟨o, ho, hod⟩ := h.1.uploads.images d hd
      have hsum : ∀ d' ∈ s.uploads.images.find found, ∀ o' ∈ s.uploads.objects,
          o'.id = d'.objectId → o'.checksum = o.checksum := by
        intro d' hd' o' ho' hobject
        obtain rfl : d = d' := Option.some.inj (hfind.symm.trans hd')
        exact congrArg ArtifactObject.checksum
          (h.1.uploads.objects o' ho' o ho (hobject.trans hod.symm))
      obtain ⟨m, hmanifest, hmarks⟩ := marks_markManifestAvailable hv hsum
      have hlinked := linked_markManifestAvailable h.1.uploads ⟨d, hd, hid⟩ hv
      have himages : v.images = s.uploads.images := by
        obtain ⟨m, -, hv⟩ := Option.bind_eq_some_iff.mp hv
        cases hv
        rfl
      refine ⟨⟨huploads ▸ hlinked, fun x hx p hp => ?_⟩, huploads ▸ hmarks.apart h.2 ?_⟩
      · rw [huploads]
        rcases hnegotiations x hx with hx | ⟨step, hstep, -⟩
        · exact himages.symm ▸ h.1.negotiations x hx p hp
        · cases hstep
      · exact hadmits m hmanifest d hfind o ho hod
    | _ => cases hm

theorem State.KeptApart.publishArtifact (h : s.KeptApart) {token objectId imageId : Uuid}
    (ha : KeepsApart s (.publishArtifact token objectId imageId))
    (hs : SymbolUpload.publishArtifact s token objectId imageId = some s') : s'.KeptApart := by
  obtain ⟨a, artifact, canonical, hfind, hstep, hu, hfinishes⟩ := publishArtifact_step hs
  obtain ⟨hlinked, m, hm, hmarks⟩ := publishArtifact_marks h.1.uploads hu
  have hadmits := ha a hfind artifact (by rw [hstep]; rfl) m hm
  refine ⟨⟨hlinked, fun n hn p hp => ?_⟩, hmarks.apart h.2 hadmits⟩
  obtain ⟨d, hd, hid⟩ := h.1.negotiations n (hfinishes.negotiations ▸ hn) p hp
  obtain ⟨d', hd', hid'⟩ := publishArtifact_images hu d hd
  exact ⟨d', hd', hid'.trans hid⟩

theorem State.KeptApart.still (h : s.KeptApart) (hf : s.uploads.Fades s'.uploads)
    (hn : s'.negotiations = s.negotiations) : s'.KeptApart :=
  h.fade hf fun _ hmem => .inl (hn ▸ hmem)

theorem State.KeptApart.step (h : s.KeptApart) {action : Action} (ha : KeepsApart s action)
    (hs : SymbolUpload.step s action = some s') : s'.KeptApart := by
  rcases writes_step hs with ⟨id, artifact, rfl⟩ | ⟨id, newId, image, rfl⟩ | ⟨hn, hwrites⟩
  · change startNegotiation s id artifact = some s' at hs
    unfold SymbolUpload.startNegotiation at hs
    split_ifs at hs
    cases hs
    refine h.fade (.refl _) fun n hn => ?_
    rcases Table.mem_of_mem_insert hn with rfl | hn
    · exact .inr (by rintro _ ⟨⟩)
    · exact .inl hn
  · exact h.negotiate ha hs
  · cases hwrites with
    | keeps hu => exact h.still (hu ▸ .refl _) hn
    | begins hu => exact h.still (hu ▸ .of_eq rfl rfl rfl) hn
    | enqueues _ _ hu => exact h.still (fades_enqueueArtifactIndex hu) hn
    | publishes => exact h.publishArtifact ha hs
    | rejects _ _ hu => exact h.still (fades_publishArtifactFailure hu) hn
    | fails hu => exact h.still (fades_failArtifact hu) hn

theorem keptApart_of_reachable
    (h : Reachable (restrict step KeepsApart) (fun _ => True) .init s) : s.KeptApart :=
  h.invariant State.KeptApart ⟨⟨⟨nofun, nofun, nofun, nofun⟩, nofun⟩, nofun⟩
    fun _ _ _ _ hk hs _ =>
      have hstep := restrict_eq_some.mp hs
      hk.step hstep.1 hstep.2

end steps
end FaultLane.SymbolUpload
