import FaultLane.SymbolUploadIndexing

set_option autoImplicit false

/-!
# Stored objects keep their bytes

The bytes of an upload stand under the key of its session. A key that a call is about to
delete is spent: its session is done, and no row names it or ever will.
-/
namespace FaultLane.SymbolUpload
open KeyedTable JobQueue TransitionSystem

def State.Holds (s : State) (key : ObjectKey) (checksum : Checksum) (byteSize : Nat) : Prop :=
  (⟨key, checksum, byteSize⟩ : StoredObject) ∈ s.store

def Uploads.Closed (u : Uploads) (key : ObjectKey) : Prop :=
  ∃ t ∈ u.sessions, t.objectKey = key ∧ ¬ t.isOpen

structure Uploads.Spent (u : Uploads) (key : ObjectKey) : Prop where
  closed : u.Closed key
  unnamed : ∀ o ∈ u.objects, o.objectKey ≠ key

def Uploads.KeepsCompletion (u : Uploads) : CompletionStep → Prop
  | .cleanupDuplicate session => ∃ t ∈ u.sessions, t.SameUpload session ∧ t.state = .completed
  | .delete key => u.Spent key
  | .load | .begin _ | .checkObject _ | .completeMultipart _ | .enqueue _ => True

def State.KeepsAttempt (s : State) : IndexStep → Prop
  | .loaded artifact true =>
    s.Holds artifact.objectKey artifact.identity.checksum artifact.identity.byteSize ∨
      s.uploads.Closed artifact.objectKey
  | .delete key => s.uploads.Spent key
  | .load | .loaded _ false | .done => True

/-- A multipart upload that is still open has left no object behind. -/
structure State.Parts (s : State) : Prop where
  nodup : s.multiparts.Nodup
  unfinished : ∀ key ∈ s.multiparts, s.store.find key = none
  known : ∀ key ∈ s.multiparts, ∃ t ∈ s.uploads.sessions, t.id = key
  uploaded : ∀ b ∈ s.store, ∃ t ∈ s.uploads.sessions, t.id = b.key

structure State.Kept (s : State) : Prop where
  parts : s.Parts
  stored : ∀ o ∈ s.uploads.objects, s.Holds o.objectKey o.checksum o.byteSize
  completions : ∀ c ∈ s.completions, s.uploads.KeepsCompletion c.step
  attempts : ∀ a ∈ s.attempts, s.KeepsAttempt a.step

/-- A step that takes away no bytes but those of spent keys. -/
structure State.Spares (s s' : State) : Prop where
  evolves : s.uploads.Evolves s'.uploads
  spent : ∀ key, s.uploads.Spent key → s'.uploads.Spent key
  holds : ∀ key checksum byteSize, s.Holds key checksum byteSize →
    s'.Holds key checksum byteSize ∨ s.uploads.Spent key

section rows
variable {u u' : Uploads}

theorem Uploads.Evolves.closed (h : u.Evolves u') {key : ObjectKey} (hc : u.Closed key) :
    u'.Closed key := by
  obtain ⟨t, ht, hkey, hclosed⟩ := hc
  obtain ⟨t', ht', hsame, hfinal⟩ := h.sessions t ht
  refine ⟨t', ht', hsame.1.trans hkey, ?_⟩
  rwa [Session.isOpen, hfinal hclosed]

theorem Uploads.Evolves.spent (h : u.Evolves u') (ho : u'.objects = u.objects) {key : ObjectKey}
    (hs : u.Spent key) : u'.Spent key := ⟨h.closed hs.closed, ho ▸ hs.unnamed⟩

/-- A closed key names no session that is still open. -/
theorem Uploads.Closed.not_open {key : ObjectKey} (h : u.Closed key) {t : Session}
    (ht : t ∈ u.sessions) (hid : t.id = key) : ¬ t.isOpen := by
  obtain ⟨x, hx, hkey, hclosed⟩ := h
  obtain rfl := IndexedTable.eq_of_key_eq hx ht (hkey.trans hid.symm)
  exact hclosed

/-- The key of a closed session is spent when the row that it would name is another one. -/
theorem spent_of_named (hn : ∀ o ∈ u.objects, u.Names o) {t : Session} (ht : t ∈ u.sessions)
    (hclosed : ¬ t.isOpen) (hfree : t.state = .completed → ∀ o ∈ u.objects,
      o.checksum = t.identity.checksum → o.objectKey ≠ t.objectKey) : u.Spent t.objectKey := by
  refine ⟨⟨t, ht, rfl, hclosed⟩, fun o ho hkey => ?_⟩
  obtain ⟨x, hx, hxkey, hstate, hsum⟩ := hn o ho
  obtain rfl := IndexedTable.eq_of_key_eq hx ht (hxkey.trans hkey)
  exact hfree hstate o ho hsum.symm hkey

theorem spent_of_failed (hn : ∀ o ∈ u.objects, u.Names o) {t : Session} (ht : t ∈ u.sessions)
    {code : String} (hs : t.state = .failed code) : u.Spent t.objectKey := by
  refine spent_of_named hn ht ?_ fun hcompleted => ?_
  · rw [Session.isOpen, hs]
    rintro ⟨⟩
  · rw [hs] at hcompleted
    cases hcompleted

/-- Another object is stored for the checksum of a completed session. -/
theorem spent_of_duplicate (hn : ∀ o ∈ u.objects, u.Names o) {t : Session} (ht : t ∈ u.sessions)
    (hs : t.state = .completed) (hother : ∀ own ∈ u.objects.find t.identity.checksum,
      own.objectKey ≠ t.objectKey) : u.Spent t.objectKey := by
  refine spent_of_named hn ht ?_ fun _ o ho hsum => ?_
  · rw [Session.isOpen, hs]
    rintro ⟨⟩
  · exact hother o (Table.find_eq_some.mpr ⟨ho, hsum⟩)

theorem publishArtifact_rows {artifact : Session} {objectId imageId : Uuid} {key : ObjectKey}
    (h : u.publishArtifact artifact objectId imageId = some (u', key)) :
    (∃ t ∈ u.sessions, t.id = artifact.id ∧ t.isOpen) ∧
      (∃ t ∈ u'.sessions, t.id = artifact.id ∧ t.identity = artifact.identity ∧
        t.state = .completed) ∧
      (∃ o ∈ u'.objects, o.checksum = artifact.identity.checksum ∧ o.objectKey = key) ∧
      ∀ o ∈ u'.objects, o ∈ u.objects ∨ (o.objectKey = artifact.objectKey ∧
        o.checksum = artifact.identity.checksum ∧ o.byteSize = artifact.identity.byteSize) := by
  obtain ⟨v, w, o, image, ho, hi, hx, rfl⟩ := publishArtifact_eq_some h
  obtain ⟨hsum, hov, hvs, -, hv⟩ := upsertObject_eq_some ho
  obtain ⟨hws, -, hwo⟩ := upsertImage_eq_some hi
  obtain ⟨t, m, ht, hid, hstate, hident, -, -, rfl⟩ := endArtifact_eq_some hx
  refine ⟨⟨t, hvs ▸ hws ▸ ht, hid, Session.isOpen_of_eq hstate rfl⟩,
    ⟨{ t with state := .completed }, ?_, hid, hident, rfl⟩, ⟨o, ?_, hsum, rfl⟩, fun x hxo => ?_⟩
  · exact (mem_moveSession (h := rfl)).mpr (.inr ⟨t, ht, rfl, hstate, rfl⟩)
  · exact hwo ▸ hov
  · have hxv : x ∈ v.objects := hwo ▸ hxo
    rcases hv with ⟨rfl, -⟩ | ⟨hkey, hsize, hmem⟩
    · exact .inl hxv
    · rcases (hmem x).mp hxv with rfl | hxu
      · exact .inr ⟨hkey, hsum, hsize⟩
      · exact .inl hxu

theorem publishArtifactFailure_rows {artifact : Session} {code : String} {quarantine : Bool}
    (h : u.publishArtifactFailure artifact code quarantine = some u') :
    ∃ t ∈ u'.sessions, t.objectKey = artifact.objectKey ∧ t.state = .failed code := by
  obtain ⟨t, m, ht, hid, hstate, -, -, -, rfl⟩ := endArtifact_eq_some h
  exact ⟨{ t with state := .failed code },
    (mem_moveSession (h := rfl)).mpr (.inr ⟨t, ht, rfl, hstate, rfl⟩), hid, rfl⟩

theorem enqueueArtifactIndex_objects {session : Session}
    (h : u.enqueueArtifactIndex session = some u') : u'.objects = u.objects := by
  obtain ⟨t, m, -, -, -, -, -, -, -, rfl⟩ := enqueueArtifactIndex_eq_some h
  rfl

theorem failArtifact_objects {projectId uploadId : Uuid} {code : String}
    (h : u.failArtifact projectId uploadId code = some u') : u'.objects = u.objects := by
  obtain ⟨t, m, -, -, -, -, -, rfl⟩ := failArtifact_eq_some h
  rfl

theorem publishArtifactFailure_objects {artifact : Session} {code : String} {quarantine : Bool}
    (h : u.publishArtifactFailure artifact code quarantine = some u') :
    u'.objects = u.objects := by
  obtain ⟨t, m, -, -, -, -, -, -, rfl⟩ := endArtifact_eq_some h
  rfl

theorem tryUpsert_objects {a : ValidatedArtifact} {newId manifestId : Uuid}
    (h : u.tryUpsertManifestArtifact a newId = .written manifestId u') :
    u'.objects = u.objects := by
  unfold Uploads.tryUpsertManifestArtifact at h
  split at h <;> split_ifs at h <;> cases h <;> rfl

theorem abort_objects (t : Option Session) : (u.abort t).1.objects = u.objects := by
  cases t <;> rfl

theorem markManifestAvailable_objects {projectId manifestId image : Uuid}
    (h : u.markManifestAvailable projectId manifestId image = some u') :
    u'.objects = u.objects := by
  obtain ⟨m, -, h⟩ := Option.bind_eq_some_iff.mp h
  cases h
  rfl

theorem updateManifestState_objects {projectId manifestId : Uuid} {state : ManifestState}
    (h : u.updateManifestState projectId manifestId state = some u') :
    u'.objects = u.objects := by
  unfold Uploads.updateManifestState at h
  split at h <;> split_ifs at h <;> cases h <;> rfl

theorem canonicalObject_mem {session : Session} {o : ArtifactObject}
    (h : u.canonicalObject session = some o) : o ∈ u.objects := by
  obtain ⟨m, -, h⟩ := Option.bind_eq_some_iff.mp h
  obtain ⟨image, -, h⟩ := Option.bind_eq_some_iff.mp h
  obtain ⟨d, -, h⟩ := Option.bind_eq_some_iff.mp h
  exact List.mem_of_find?_eq_some h

end rows

section preserved
variable {s s' : State}

theorem State.Spares.of_holds (he : s.uploads.Evolves s'.uploads)
    (ho : s'.uploads.objects = s.uploads.objects) (hs : ∀ b ∈ s.store, b ∈ s'.store) :
    s.Spares s' := ⟨he, fun _ => he.spent ho, fun _ _ _ hb => .inl (hs _ hb)⟩

theorem State.Spares.delete {key : ObjectKey} (hu : s'.uploads = s.uploads)
    (hk : s.uploads.Spent key) (hs : s'.store = s.store.delete key) : s.Spares s' := by
  refine ⟨hu ▸ .refl _, fun k hspent => hu ▸ hspent, fun k checksum byteSize hb => ?_⟩
  by_cases hkey : k = key
  · exact .inr (hkey ▸ hk)
  · exact .inl (by rw [State.Holds, hs]; exact Table.mem_delete.mpr ⟨hb, hkey⟩)

theorem Uploads.KeepsCompletion.mono {c : CompletionStep} (h : s.uploads.KeepsCompletion c)
    (hs : s.Spares s') : s'.uploads.KeepsCompletion c := by
  cases c with
  | cleanupDuplicate session =>
    obtain ⟨t, ht, hsame, hstate⟩ := h
    obtain ⟨t', ht', hsame', hfinal⟩ := hs.evolves.sessions t ht
    refine ⟨t', ht', hsame'.trans hsame, (hfinal ?_).trans hstate⟩
    rw [Session.isOpen, hstate]
    rintro ⟨⟩
  | delete key => exact hs.spent key h
  | load | begin _ | checkObject _ | completeMultipart _ | enqueue _ => exact trivial

theorem State.KeepsAttempt.mono {i : IndexStep} (h : s.KeepsAttempt i) (hs : s.Spares s') :
    s'.KeepsAttempt i := by
  cases i with
  | loaded artifact verified =>
    cases verified with
    | false => exact trivial
    | true =>
      rcases h with hb | hclosed
      · rcases hs.holds _ _ _ hb with hb | hspent
        · exact .inl hb
        · exact .inr (hs.evolves.closed hspent.closed)
      · exact .inr (hs.evolves.closed hclosed)
  | delete key => exact hs.spent key h
  | load | done => exact trivial

theorem State.Kept.spare (h : s.Kept) (hs : s.Spares s') (hp : s'.Parts)
    (ho : ∀ o ∈ s'.uploads.objects, o ∈ s.uploads.objects ∨
      s'.Holds o.objectKey o.checksum o.byteSize)
    (hc : ∀ c ∈ s'.completions, c ∈ s.completions ∨ s'.uploads.KeepsCompletion c.step)
    (ha : ∀ a ∈ s'.attempts, a ∈ s.attempts ∨ s'.KeepsAttempt a.step) : s'.Kept where
  parts := hp
  stored o hmem := by
    rcases ho o hmem with hold | hb
    · rcases hs.holds _ _ _ (h.stored o hold) with hb | hspent
      · exact hb
      · exact absurd rfl (hspent.unnamed o hold)
    · exact hb
  completions c hmem := (hc c hmem).elim (fun hold => (h.completions c hold).mono hs) id
  attempts a hmem := (ha a hmem).elim (fun hold => (h.attempts a hold).mono hs) id

/-! ## Multipart uploads -/

theorem State.Parts.shrink (h : s.Parts) (he : s.uploads.Evolves s'.uploads)
    (hs : ∀ b ∈ s'.store, b ∈ s.store) (hm : s'.multiparts.Sublist s.multiparts) : s'.Parts where
  nodup := h.nodup.sublist hm
  unfinished key hk := Table.find_eq_none.mpr fun b hb =>
    Table.find_eq_none.mp (h.unfinished key (hm.subset hk)) b (hs b hb)
  known key hk := by
    obtain ⟨t, ht, hid⟩ := h.known key (hm.subset hk)
    obtain ⟨t', ht', hsame, -⟩ := he.sessions t ht
    exact ⟨t', ht', hsame.1.trans hid⟩
  uploaded b hb := by
    obtain ⟨t, ht, hid⟩ := h.uploaded b (hs b hb)
    obtain ⟨t', ht', hsame, -⟩ := he.sessions t ht
    exact ⟨t', ht', hsame.1.trans hid⟩

theorem State.Parts.negotiates (h : s.Parts) (hn : s.Negotiates s') : s'.Parts := by
  have hstore : ∀ b ∈ s'.store, b ∈ s.store := fun b hb => hn.store ▸ hb
  rcases hn.multiparts with hm | ⟨key, hm, hnew, t, ht, hid⟩
  · exact h.shrink hn.evolves hstore hm
  · have hold : ∀ x ∈ s.uploads.sessions, x.id ≠ key := IndexedTable.find_eq_none.mp hnew
    let rest : State := { s' with multiparts := s.multiparts }
    have hrest : rest.Parts := h.shrink hn.evolves hstore (.refl _)
    refine ⟨?_, fun k hk => ?_, fun k hk => ?_, hrest.uploaded⟩
    · rw [hm]
      refine List.nodup_cons.mpr ⟨fun hmem => ?_, h.nodup⟩
      obtain ⟨x, hx, hxid⟩ := h.known key hmem
      exact hold x hx hxid
    · rcases List.mem_cons.mp (hm ▸ hk) with rfl | hk
      · refine Table.find_eq_none.mpr fun b hb hkey => ?_
        obtain ⟨x, hx, hxid⟩ := h.uploaded b (hstore b hb)
        exact hold x hx (hxid.trans hkey)
      · exact hrest.unfinished k hk
    · rcases List.mem_cons.mp (hm ▸ hk) with rfl | hk
      · exact ⟨t, ht, hid⟩
      · exact hrest.known k hk

/-- The object of a multipart upload is new to the store. -/
theorem State.Parts.mem_complete (h : s.Parts) {b x : StoredObject} (hk : b.key ∈ s.multiparts) :
    x ∈ (s.store.delete b.key).insert b ↔ x = b ∨ x ∈ s.store := by
  have hnone : (s.store.delete b.key).find b.key = none := Table.find_delete_self s.store b.key
  rw [Table.mem_insert hnone, Table.mem_delete]
  refine or_congr_right (and_iff_left_of_imp fun hx => ?_)
  exact Table.find_eq_none.mp (h.unfinished b.key hk) x hx

theorem State.Parts.completeMultipart (h : s.Parts) {b : StoredObject} (hk : b.key ∈ s.multiparts) :
    { s with
      multiparts := s.multiparts.erase b.key
      store := (s.store.delete b.key).insert b }.Parts where
  nodup := h.nodup.erase b.key
  unfinished key hkey := by
    obtain ⟨hne, hmem⟩ := h.nodup.mem_erase_iff.mp hkey
    refine Table.find_eq_none.mpr fun x hx hxkey => ?_
    rcases (h.mem_complete hk).mp hx with rfl | hx
    · exact hne hxkey.symm
    · exact Table.find_eq_none.mp (h.unfinished key hmem) x hx hxkey
  known key hkey := h.known key (List.mem_of_mem_erase hkey)
  uploaded x hx := by
    rcases (h.mem_complete hk).mp hx with rfl | hx
    · exact h.known x.key hk
    · exact h.uploaded x hx

theorem State.Spares.congr {u : State} (h : s.Spares u) (hu : s'.uploads = u.uploads)
    (hs : s'.store = u.store) : s.Spares s' := by
  refine ⟨hu ▸ h.evolves, hu ▸ h.spent, ?_⟩
  simp only [State.Holds, hs]
  exact h.holds

theorem State.Parts.congr {u : State} (h : u.Parts) (hu : s'.uploads = u.uploads)
    (hs : s'.store = u.store) (hm : s'.multiparts = u.multiparts) : s'.Parts :=
  ⟨hm ▸ h.nodup, hm ▸ hs ▸ h.unfinished, hm ▸ hu ▸ h.known, hs ▸ hu ▸ h.uploaded⟩

end preserved

/-! ## Duplicates -/

def CompletionStep.cleanup : CompletionStep → Option Session
  | .cleanupDuplicate session => some session
  | _ => none

/-- The object of the manifest row is the one stored for the session's checksum, or the
session's own object is not. -/
def Uploads.CleansDuplicate (u : Uploads) (session : Session) : Prop :=
  ∀ o ∈ u.canonicalObject session, o.checksum = session.identity.checksum ∨
    ∀ own ∈ u.objects.find session.identity.checksum, own.objectKey ≠ session.objectKey

instance (u : Uploads) (session : Session) : Decidable (u.CleansDuplicate session) := by
  unfold Uploads.CleansDuplicate
  infer_instance

/-- Complete calls clean up only after sessions whose duplicate is still the manifest row's. -/
def CleansDuplicates (s : State) : Action → Prop
  | .complete id _ _ => ∀ c ∈ s.completions.find id, ∀ session ∈ c.step.cleanup,
    s.uploads.CleansDuplicate session
  | _ => True

instance (s : State) : DecidablePred (CleansDuplicates s) := fun action => by
  induction action using Action.casesOn <;> unfold CleansDuplicates <;> infer_instance

section steps
variable {s s' : State}

theorem spent_of_cleanup {u : Uploads} (hn : ∀ o ∈ u.objects, u.Names o) {session : Session}
    (hc : u.KeepsCompletion (.cleanupDuplicate session)) (hb : u.CleansDuplicate session)
    {o : ArtifactObject} (ho : u.canonicalObject session = some o)
    (hne : o.objectKey ≠ session.objectKey) : u.Spent session.objectKey := by
  obtain ⟨t, ht, ⟨hid, -, -, hident⟩, hstate⟩ := hc
  have hkey : t.objectKey = session.objectKey := hid
  refine hkey ▸ spent_of_duplicate hn ht hstate fun own hown => ?_
  rw [hident] at hown
  rw [hkey]
  rcases hb o ho with hsum | hfree
  · obtain ⟨hmem, hown⟩ := Table.find_eq_some.mp hown
    obtain rfl := Table.eq_of_key_eq hmem (canonicalObject_mem ho) (hown.trans hsum.symm)
    exact hne
  · exact hfree own hown

theorem State.Kept.completeNext (h : s.Kept) (hk : s.Known) {projectId uploadId : Uuid}
    {checksum : Checksum} {byteSize : Nat} {c : CompletionStep} {next : Option CompletionStep}
    (hc : s.uploads.KeepsCompletion c)
    (hb : ∀ session ∈ c.cleanup, s.uploads.CleansDuplicate session)
    (hs : SymbolUpload.completeNext s projectId uploadId checksum byteSize c = some (s', next)) :
    s.Spares s' ∧ s'.Parts ∧ s'.uploads.objects = s.uploads.objects ∧
      ∀ d ∈ next, s'.uploads.KeepsCompletion d := by
  have hrefl : s.Spares s := .of_holds (.refl _) rfl fun _ hb => hb
  cases c with
  | load =>
    obtain ⟨session, hsession, hs⟩ := Option.bind_eq_some_iff.mp hs
    obtain ⟨hmem, -, -⟩ := session_eq_some hsession
    split at hs
    · next hstate =>
      cases hs
      exact ⟨hrefl, h.parts, rfl, fun d hd => by cases hd; exact ⟨session, hmem, .refl session, hstate⟩⟩
    · cases hs
      exact ⟨hrefl, h.parts, rfl, nofun⟩
    · next hstate =>
      cases hs
      exact ⟨hrefl, h.parts, rfl, fun d hd => by cases hd; exact spent_of_failed hk.named hmem hstate⟩
    · split_ifs at hs
      cases hs
      exact ⟨hrefl, h.parts, rfl, fun d hd => by cases hd; exact trivial⟩
    · cases hs
      exact ⟨hrefl, h.parts, rfl, fun d hd => by cases hd; exact trivial⟩
    · cases hs
  | cleanupDuplicate session =>
    dsimp only [SymbolUpload.completeNext] at hs
    split at hs
    · cases hs
      exact ⟨hrefl, h.parts, rfl, nofun⟩
    · next o ho =>
      cases hs
      refine ⟨hrefl, h.parts, rfl, fun d hd => ?_⟩
      split_ifs at hd with hkey
      · cases hd
      · cases hd
        exact spent_of_cleanup hk.named hc (hb session rfl) ho hkey
  | delete key =>
    cases hs
    refine ⟨.delete rfl hc rfl, h.parts.shrink (.refl _) (fun b hb => ?_) (.refl _), rfl, nofun⟩
    exact (Table.mem_delete.mp hb).1
  | begin session =>
    obtain ⟨current, -, hs⟩ := Option.bind_eq_some_iff.mp hs
    split_ifs at hs
    cases hs
    have hevolves : s.uploads.Evolves (s.uploads.moveSession uploadId .active .completing rfl) :=
      evolves_moveSession
    exact ⟨.of_holds hevolves rfl fun _ hb => hb,
      h.parts.shrink hevolves (fun _ hb => hb) (.refl _), rfl, fun d hd => by cases hd; exact trivial⟩
  | checkObject session =>
    cases hs
    refine ⟨hrefl, h.parts, rfl, fun d hd => ?_⟩
    split_ifs at hd <;> cases hd <;> exact trivial
  | completeMultipart session =>
    dsimp only [SymbolUpload.completeNext] at hs
    split_ifs at hs with hopen
    cases hs
    let b : StoredObject := ⟨session.objectKey, checksum, byteSize⟩
    refine ⟨.of_holds (.refl _) rfl fun x hx => ?_, h.parts.completeMultipart (b := b) hopen, rfl,
      fun d hd => by cases hd; exact trivial⟩
    exact (h.parts.mem_complete (b := b) hopen).mpr (.inr hx)
  | enqueue session =>
    obtain ⟨u, hu, hs⟩ := Option.bind_eq_some_iff.mp hs
    cases hs
    have hevolves := evolves_enqueueArtifactIndex hu
    have hobjects := enqueueArtifactIndex_objects hu
    exact ⟨.of_holds hevolves hobjects fun _ hb => hb,
      h.parts.shrink hevolves (fun _ hb => hb) (.refl _), hobjects, nofun⟩

theorem State.Kept.complete (h : s.Kept) (hk : s.Known) {id : Uuid} {checksum : Checksum}
    {byteSize : Nat} (hb : CleansDuplicates s (.complete id checksum byteSize))
    (hs : SymbolUpload.complete s id checksum byteSize = some s') : s'.Kept := by
  obtain ⟨c, u, next, hfind, hu, huploads, hattempts, -, hstore, hmultiparts, hcompletions⟩ :=
    complete_eq_some hs
  obtain ⟨hmem, -⟩ := Table.find_eq_some.mp hfind
  have hcompletes := completes_completeNext (hk.completions c hmem) hu
  obtain ⟨hspares, hparts, hobjects, hnext⟩ :=
    h.completeNext hk (h.completions c hmem) (hb c hfind) hu
  refine h.spare (hspares.congr huploads hstore) (hparts.congr huploads hstore hmultiparts)
    (fun o ho => .inl (hobjects ▸ huploads ▸ ho)) (fun x hx => ?_)
    fun a ha => .inl (hcompletes.attempts ▸ hattempts ▸ ha)
  rcases hcompletions hcompletes.completions x hx with hold | ⟨d, hd, rfl⟩
  · exact .inl hold
  · exact .inr (huploads ▸ hnext d hd)

/-- The step of a worker that changes no object row and no bytes. -/
theorem State.Kept.work (h : s.Kept) {token : Uuid} (hw : s.Works s' token)
    (hstore : s'.store = s.store) (ho : s'.uploads.objects = s.uploads.objects)
    (ha : ∀ a ∈ s'.attempts, a ∈ s.attempts ∨ s'.KeepsAttempt a.step) : s'.Kept :=
  h.spare (.of_holds hw.evolves ho fun _ hb => hstore ▸ hb)
    (h.parts.shrink hw.evolves (fun _ hb => hstore ▸ hb) (hw.multiparts ▸ .refl _))
    (fun _ hmem => .inl (ho ▸ hmem)) (fun _ hc => .inl (hw.completions ▸ hc)) ha

/-- The rows of the attempts when one of them goes on. -/
theorem attempts_of_put {token : Uuid} {i : IndexStep} (hi : s'.KeepsAttempt i)
    (ha : s'.attempts = (s.putAttempt token i).attempts) :
    ∀ a ∈ s'.attempts, a ∈ s.attempts ∨ s'.KeepsAttempt a.step := by
  intro a hmem
  rcases mem_putAttempt (ha ▸ hmem) with hold | ⟨b, -, rfl⟩
  · exact .inl hold
  · exact .inr hi

theorem State.Kept.verifyArtifact (h : s.Kept) {token : Uuid}
    (hs : SymbolUpload.verifyArtifact s token = some s') : s'.Kept := by
  have hw := works_verifyArtifact hs
  obtain ⟨a, artifact, verified, o, -, -, ho, hkey, hsum, hsize, rfl⟩ := verifyArtifact_eq_some hs
  refine h.work hw rfl rfl (attempts_of_put (i := .loaded artifact true) (Or.inl ?_) rfl)
  obtain ⟨key, checksum, byteSize⟩ := o
  cases hkey
  cases hsum
  cases hsize
  exact ho

theorem State.Kept.publishArtifact (h : s.Kept) (hk' : s'.Known) {token objectId imageId : Uuid}
    (hs : SymbolUpload.publishArtifact s token objectId imageId = some s') : s'.Kept := by
  have hw := works_publishArtifact hs
  obtain ⟨a, artifact, canonical, ha, hstep, hu, hfinishes⟩ := publishArtifact_step hs
  obtain ⟨⟨t, ht, hid, hopen⟩, ⟨t', ht', hid', hident, hstate⟩, ⟨o, ho, hsum, rfl⟩, hrows⟩ :=
    publishArtifact_rows hu
  have hkey' : t'.objectKey = artifact.objectKey := hid'
  have hopen_key : ¬ s.uploads.Closed artifact.objectKey := fun hc => hc.not_open ht hid hopen
  have hbytes : s.Holds artifact.objectKey artifact.identity.checksum artifact.identity.byteSize := by
    have hkept := h.attempts a (Table.find_eq_some.mp ha).1
    rw [hstep] at hkept
    exact hkept.resolve_right hopen_key
  have hholds : ∀ key checksum byteSize, s.Holds key checksum byteSize →
      s'.Holds key checksum byteSize := fun _ _ _ hb => by rwa [State.Holds, hfinishes.store]
  have hspares : s.Spares s' := by
    refine ⟨hw.evolves, fun key hspent => ⟨hw.evolves.closed hspent.closed, fun x hx hxkey => ?_⟩,
      fun _ _ _ hb => .inl (hholds _ _ _ hb)⟩
    rcases hrows x hx with hold | ⟨hnew, -, -⟩
    · exact hspent.unnamed x hold hxkey
    · exact hopen_key (hnew ▸ hxkey ▸ hspent.closed)
  refine h.spare hspares (h.parts.shrink hw.evolves (fun _ hb => hfinishes.store ▸ hb)
    (hw.multiparts ▸ .refl _)) (fun x hx => ?_) (fun c hc => .inl (hw.completions ▸ hc))
    (attempts_of_put ?_ hfinishes.attempts)
  · rcases hrows x hx with hold | ⟨hkey, hxsum, hsize⟩
    · exact .inl hold
    · exact .inr (by rw [hkey, hxsum, hsize]; exact hholds _ _ _ hbytes)
  · split_ifs with hcanonical
    · exact trivial
    · have hspent : s'.uploads.Spent t'.objectKey := by
        refine spent_of_duplicate hk'.named ht' hstate fun own hown => ?_
        obtain ⟨hmem, hown⟩ := Table.find_eq_some.mp hown
        obtain rfl := Table.eq_of_key_eq hmem ho (hown.trans ((congrArg _ hident).trans hsum.symm))
        exact hkey' ▸ hcanonical
      exact hkey' ▸ hspent

theorem State.Kept.publishArtifactFailure (h : s.Kept) (hk' : s'.Known) {token : Uuid}
    {code : String} {quarantine : Bool}
    (hs : SymbolUpload.publishArtifactFailure s token code quarantine = some s') : s'.Kept := by
  have hw := works_publishArtifactFailure hs
  obtain ⟨a, artifact, verified, -, -, hu, hfinishes⟩ := publishArtifactFailure_step hs
  obtain ⟨t, ht, hkey, hstate⟩ := publishArtifactFailure_rows hu
  refine h.work hw hfinishes.store (publishArtifactFailure_objects hu) (attempts_of_put ?_ hfinishes.attempts)
  exact hkey ▸ spent_of_failed hk'.named ht hstate

theorem State.Kept.deleteObject (h : s.Kept) {token : Uuid}
    (hs : SymbolUpload.deleteObject s token = some s') : s'.Kept := by
  obtain ⟨a, key, ha, hstep, rfl⟩ := deleteObject_step hs
  have hspent : s.uploads.Spent key := by
    have hkept := h.attempts a (Table.find_eq_some.mp ha).1
    rwa [hstep] at hkept
  refine h.spare (.delete rfl hspent rfl) (h.parts.shrink (.refl _) (fun b hb => ?_) (.refl _))
    (fun _ ho => .inl ho) (fun _ hc => .inl hc) (attempts_of_put (i := .done) trivial rfl)
  exact (Table.mem_delete.mp hb).1

theorem State.Kept.loadArtifact (h : s.Kept) {token : Uuid}
    (hs : SymbolUpload.loadArtifact s token = some s') : s'.Kept := by
  have hw := works_loadArtifact hs
  obtain ⟨a, -, hs⟩ := Option.bind_eq_some_iff.mp hs
  obtain ⟨artifact, -, hs⟩ := Option.bind_eq_some_iff.mp hs
  split_ifs at hs
  cases hs
  exact h.work hw rfl rfl (attempts_of_put (i := .loaded artifact false) trivial rfl)

theorem State.Kept.finishFailure (h : s.Kept) {token : Uuid} {quarantine resource : Bool}
    {code : String} (hs : SymbolUpload.finishFailure s token quarantine resource code = some s') :
    s'.Kept := by
  have hw := works_finishFailure hs
  obtain ⟨a, -, hu, hfinishes⟩ := finishFailure_step hs
  exact h.work hw hfinishes.store (failArtifact_objects hu) (attempts_of_put (i := .done) trivial hfinishes.attempts)

theorem negotiateNext_objects {a : ValidatedArtifact} {newId : Uuid} {image : Option Uuid}
    {n : NegotiationStep} {next : Option NegotiationStep}
    (h : negotiateNext s a newId image n = some (s', next)) :
    s'.uploads.objects = s.uploads.objects := by
  cases states_negotiateNext h with
  | reads => rfl
  | upserts hu => exact tryUpsert_objects hu
  | retires t =>
    rw [abortMultipart_uploads]
    exact abort_objects t
  | marks _ hu => exact markManifestAvailable_objects hu
  | updates _ hu => exact updateManifestState_objects hu
  | inserts hu =>
    obtain ⟨t, -, -, -, -, -, hobjects, -⟩ := insertSession_eq_some hu
    exact hobjects

theorem State.Kept.negotiates (h : s.Kept) (hn : s.Negotiates s')
    (ho : s'.uploads.objects = s.uploads.objects) : s'.Kept :=
  h.spare (.of_holds hn.evolves ho fun _ hb => hn.store ▸ hb) (h.parts.negotiates hn)
    (fun _ hmem => .inl (ho ▸ hmem)) (fun _ hc => .inl (hn.completions ▸ hc))
    fun _ ha => .inl (hn.attempts ▸ ha)

theorem State.Kept.step (h : s.Kept) (hk : s.Known) (hk' : s'.Known) {action : Action}
    (hb : CleansDuplicates s action) (hs : SymbolUpload.step s action = some s') : s'.Kept := by
  have hrefl : s.Spares s := .of_holds (.refl _) rfl fun _ hb => hb
  cases action with
  | tick seconds =>
    cases hs
    exact ⟨h.parts.congr rfl rfl rfl, h.stored, h.completions, h.attempts⟩
  | startNegotiation id artifact =>
    refine h.negotiates (startNegotiation_negotiates hs) ?_
    have hn : startNegotiation s id artifact = some s' := hs
    unfold startNegotiation at hn
    split_ifs at hn
    cases hn
    rfl
  | negotiate id newId image =>
    obtain ⟨n, u, next, -, hu, -, huploads, -⟩ := negotiate_eq_some hs
    exact h.negotiates (negotiates_negotiate hs) (huploads ▸ negotiateNext_objects hu)
  | startCompletion id projectId uploadId =>
    obtain ⟨c, hc, hu, hstore, ha, -, hm, hmem⟩ := startCompletion_eq_some hs
    refine h.spare (hrefl.congr hu hstore) (h.parts.congr hu hstore hm) (fun o ho => .inl (hu ▸ ho))
      (fun x hx => ?_) fun a hx => .inl (ha ▸ hx)
    rcases (hmem x).mp hx with rfl | hx
    · exact .inr (by rw [hc]; exact trivial)
    · exact .inl hx
  | complete id checksum byteSize => exact h.complete hk hb hs
  | claim uploadId holder =>
    obtain ⟨a, r, ha, -, -, -, hu, hstore, hc, hm, -, hmem⟩ := claim_eq_some hs
    refine h.spare (hrefl.congr hu hstore) (h.parts.congr hu hstore hm) (fun o ho => .inl (hu ▸ ho))
      (fun x hx => .inl (hc ▸ hx)) fun x hx => ?_
    rcases (hmem x).mp hx with rfl | hx
    · exact .inr (by rw [ha]; exact trivial)
    · exact .inl hx
  | heartbeat token =>
    have hw := works_heartbeat hs
    obtain ⟨⟨a, j⟩, -, hs⟩ := Option.bind_eq_some_iff.mp hs
    obtain ⟨j', -, hs⟩ := Option.bind_eq_some_iff.mp hs
    cases hs
    exact h.work hw rfl rfl fun _ ha => .inl ha
  | releaseJob token seconds resource dependency code =>
    have hw := works_releaseJob hs
    obtain ⟨⟨a, j⟩, -, hs⟩ := Option.bind_eq_some_iff.mp hs
    obtain ⟨j', -, hs⟩ := Option.bind_eq_some_iff.mp hs
    cases hs
    exact h.work hw rfl rfl fun _ ha => .inl ha
  | loadArtifact token => exact h.loadArtifact hs
  | verifyArtifact token => exact h.verifyArtifact hs
  | publishArtifact token objectId imageId => exact h.publishArtifact hk' hs
  | publishArtifactFailure token code quarantine => exact h.publishArtifactFailure hk' hs
  | finishFailure token quarantine resource code => exact h.finishFailure hs
  | deleteObject token => exact h.deleteObject hs

/-! ## Every run -/

/-- The bytes of every stored row are there, and no call is about to delete them. -/
structure State.KeepsBytes (s : State) : Prop where
  stored : ∀ o ∈ s.uploads.objects, o.lifecycle = .stored →
    s.Holds o.objectKey o.checksum o.byteSize
  completions : ∀ c ∈ s.completions, ∀ key, c.step = .delete key →
    ∀ o ∈ s.uploads.objects, o.objectKey ≠ key
  attempts : ∀ a ∈ s.attempts, ∀ key, a.step = .delete key →
    ∀ o ∈ s.uploads.objects, o.objectKey ≠ key

theorem State.Kept.keepsBytes (h : s.Kept) : s.KeepsBytes where
  stored o ho _ := h.stored o ho
  completions c hc key hstep := by
    have hkept := h.completions c hc
    rw [hstep] at hkept
    exact hkept.unnamed
  attempts a ha key hstep := by
    have hkept := h.attempts a ha
    rw [hstep] at hkept
    exact hkept.unnamed

theorem kept_init : State.init.Kept :=
  ⟨⟨List.nodup_nil, nofun, nofun, nofun⟩, nofun, nofun, nofun⟩

theorem keepsBytes_of_reachable
    (h : Reachable (restrict step CleansDuplicates) (fun _ => True) .init s) : s.KeepsBytes := by
  have hkept : s.Known ∧ s.Kept :=
    h.invariant (fun s => s.Known ∧ s.Kept) ⟨known_init, kept_init⟩ fun _ _ _ _ hi hs _ => by
      obtain ⟨hcondition, hstep⟩ := restrict_eq_some.mp hs
      have hknown := (hi.1.steps (steps_step hstep)).2
      exact ⟨hknown, hi.2.step hi.1 hknown hcondition hstep⟩
  exact hkept.2.keepsBytes

end steps

/-! ## A path with two builds -/

section sample

def cleanupRun (id upload : Uuid) (checksum : UInt8) : List Action :=
  .startCompletion id 1 upload :: List.replicate 3 (.complete id [checksum] 1)

/-- A second build replaces the first behind one path, and both are indexed. -/
def replacedBuild : List Action :=
  uploadRun 1 1 1 11 21 ++ completeRun 1 21 1 ++ indexRun 21 31 41 51 ++
    uploadRun 2 1 2 12 22 ++ completeRun 2 22 2 ++ indexRun 22 32 42 52

theorem keepsBytes_replacedBuild :
    ∃ s, Reachable (restrict step CleansDuplicates) (fun _ => True) .init s ∧ s.KeepsBytes ∧
      s.uploads.objects.rows.length = 2 := by
  have hrun : (run (restrict step CleansDuplicates) (fun _ => True) .init replacedBuild).isSome := by
    decide +kernel
  obtain ⟨s, hs⟩ := Option.isSome_iff_exists.mp hrun
  have hreach := Reachable.of_run (.init trivial) hs
  have hrows : ∀ u ∈ run (restrict step CleansDuplicates) (fun _ => True) .init replacedBuild,
      u.uploads.objects.rows.length = 2 := by
    decide +kernel
  exact ⟨s, hreach, keepsBytes_of_reachable hreach, hrows s hs⟩

/-- Completing the first session once more deletes its object, which a row still names. -/
theorem not_keepsBytes_of_cleanup :
    ¬ ∀ s, Reachable step (fun _ => True) .init s → s.KeepsBytes := by
  intro hkeeps
  have hrun : (run step (fun _ => True) .init (replacedBuild ++ cleanupRun 3 21 1)).isSome := by
    decide +kernel
  obtain ⟨s, hs⟩ := Option.isSome_iff_exists.mp hrun
  have hrows : ∀ u ∈ run step (fun _ => True) .init (replacedBuild ++ cleanupRun 3 21 1),
      ∃ o ∈ u.uploads.objects.rows, o.lifecycle = .stored ∧
        ∀ b ∈ u.store.rows, b.key ≠ o.objectKey := by
    decide +kernel
  obtain ⟨o, ho, hstored, hgone⟩ := hrows s hs
  exact hgone _ ((hkeeps s (Reachable.of_run (.init trivial) hs)).stored o ho hstored) rfl

end sample
end FaultLane.SymbolUpload
