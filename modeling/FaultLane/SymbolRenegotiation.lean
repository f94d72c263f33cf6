import FaultLane.SymbolUploadRetries

set_option autoImplicit false

/-!
# Negotiating a build again

The statements of one request over its artifacts, and the available rows that declare what the
request declares. The upsert of such an artifact takes the row's debug image away before the
request looks for it.
-/
namespace FaultLane.SymbolUpload
open KeyedTable JobQueue TransitionSystem

/-! ## The statements of a request -/

/-- A validated request has one release, and each path once. -/
structure NegotiationRequest where
  artifacts : List ValidatedArtifact
  release : ∀ a ∈ artifacts, ∀ b ∈ artifacts, a.projectId = b.projectId ∧ a.releaseId = b.releaseId
  paths : (artifacts.map ValidatedArtifact.path).Nodup

/-- A point between two statements: the artifacts that are not answered yet, and the statement
that the first of them runs next. -/
structure Point where
  state : State
  remaining : List ValidatedArtifact
  step : NegotiationStep

def Point.start (s : State) (r : NegotiationRequest) : Point := ⟨s, r.artifacts, .upsertManifest⟩

/-- The next statement, given an id for a new row and the image that a select finds. -/
def Point.next (p : Point) (newId : Uuid) (image : Option Uuid) : Option Point :=
  match p.remaining with
  | [] => none
  | a :: rest => do
    let (s, next) ← negotiateNext p.state a newId image p.step
    match next with
    | some step => some ⟨s, a :: rest, step⟩
    | none => some ⟨s, rest, .upsertManifest⟩

/-- The points that a request passes on its way to one. -/
inductive Passes (s : State) (r : NegotiationRequest) : List Point → Point → Prop where
  | start : Passes s r [] (.start s r)
  | next {before : List Point} {p p' : Point} {newId : Uuid} {image : Option Uuid}
      (h : Passes s r before p) (hp : p.next newId image = some p') : Passes s r (before ++ [p]) p'

/-! ## Available rows -/

/-- The row is the artifact's, and declares the same columns. -/
def ManifestArtifact.Declares (m : ManifestArtifact) (a : ValidatedArtifact) : Prop :=
  m.projectId = a.projectId ∧ m.releaseId = a.releaseId ∧ m.sourcePath = a.path ∧
    m.identity = a.identity

instance (m : ManifestArtifact) (a : ValidatedArtifact) : Decidable (m.Declares a) :=
  inferInstanceAs (Decidable (_ ∧ _))

/-- The row was available before the request, which declares it again. -/
def Redeclared (s : State) (r : NegotiationRequest) (m : ManifestArtifact) : Prop :=
  m ∈ s.uploads.manifests ∧ m.state = .available ∧ ∃ a ∈ r.artifacts, m.Declares a

/-- Such a row is still available with its debug image. -/
def KeepsAvailable (s : State) (r : NegotiationRequest) (p : Point) : Prop :=
  ∀ m, Redeclared s r m → ∃ m' ∈ p.state.uploads.manifests,
    m'.id = m.id ∧ m'.state = .available ∧ m'.debugImage = m.debugImage

/-- The manifest row that a statement works on. -/
def NegotiationStep.manifestId : NegotiationStep → Option Uuid
  | .upsertManifest | .retireReplaced | .upsertAgain => none
  | .findMatchingImage m | .markAvailable m _ | .hasChecksum m | .markMismatch m | .markMissing m
  | .retireStale m | .checkConflict m | .loadActive m | .create m => some m

def NegotiationStep.upserts : NegotiationStep → Bool
  | .upsertManifest | .upsertAgain => true
  | _ => false

/-- The next statement does not upsert the artifact over an available row that declares it. -/
def Point.Spares (p : Point) : Prop :=
  p.step.upserts → ∀ a ∈ p.remaining.head?, ∀ m ∈ p.state.uploads.manifestAt a,
    m.state = .available → ¬ m.Declares a

instance : DecidablePred Point.Spares := fun _ => inferInstanceAs (Decidable (_ → _))

/-! ## What a statement touches -/

/-- Only the row of an id may differ, and it has the path. -/
structure Uploads.Touched (u u' : Uploads) (k : Uuid) (path : String) : Prop where
  kept : ∀ m, m.id ≠ k → (m ∈ u'.manifests ↔ m ∈ u.manifests)
  path : ∀ m ∈ u'.manifests, m.id = k → m.sourcePath = path

section touched
variable {u u' : Uploads} {a : ValidatedArtifact} {k : Uuid} {path : String}

theorem Uploads.Touched.of_eq (h : u'.manifests = u.manifests)
    (hpath : ∀ m ∈ u.manifests, m.id = k → m.sourcePath = path) : u.Touched u' k path where
  kept m _ := by rw [h]
  path m hm := hpath m (h ▸ hm)

theorem Uploads.Touched.setManifest {m₀ m : ManifestArtifact} (hm : m₀ ∈ u.manifests)
    (hid : m.id = m₀.id) (hpath : m.sourcePath = path) :
    u.Touched (u.setManifest m) m.id path where
  kept x hx := by
    rw [mem_setManifest hm hid]
    constructor
    · rintro (⟨hx, -⟩ | rfl)
      · exact hx
      · exact absurd rfl hx
    · exact fun hmem => .inl ⟨hmem, hx⟩
  path x hx hk := by
    rcases (mem_setManifest hm hid).mp hx with ⟨-, hne⟩ | rfl
    · exact absurd hk hne
    · exact hpath

theorem manifestAt_eq_some {m : ManifestArtifact} (h : u.manifestAt a = some m) :
    m ∈ u.manifests ∧ m.releaseId = a.releaseId ∧ m.sourcePath = a.path := by
  unfold Uploads.manifestAt at h
  have hcolumns := List.find?_some h
  exact ⟨List.mem_of_find?_eq_some h, of_decide_eq_true hcolumns⟩

/-- The upsert writes a row of a new id, or the row of the path. -/
theorem tryUpsert_touched {newId : Uuid}
    (h : u.tryUpsertManifestArtifact a newId = .written k u') :
    u.Touched u' k a.path ∧
      ((∀ m ∈ u.manifests, m.id ≠ k) ∨ ∃ m ∈ u.manifestAt a, m.id = k) := by
  unfold Uploads.tryUpsertManifestArtifact at h
  split at h
  · next hnone =>
    split_ifs at h with hnew
    cases h
    have hnew := Option.not_isSome_iff_eq_none.mp hnew
    refine ⟨⟨fun m hm => ?_, fun m hm hid => ?_⟩, .inl (Table.find_eq_none.mp hnew)⟩
    · rw [Table.mem_insert hnew]
      constructor
      · rintro (rfl | hmem)
        · exact absurd rfl hm
        · exact hmem
      · exact .inr
    · rcases (Table.mem_insert hnew).mp hm with rfl | hmem
      · rfl
      · exact absurd hid (Table.find_eq_none.mp hnew m hmem)
  · next m hm =>
    split_ifs at h
    cases h
    have hat : u.manifestAt a = some m := hm
    obtain ⟨hmem, -, hpath⟩ := manifestAt_eq_some hat
    exact ⟨.setManifest (m := m.replaced a) hmem rfl hpath, .inr ⟨m, hat, rfl⟩⟩

theorem abort_manifests (t : Option Session) : (u.abort t).1.manifests = u.manifests := by
  cases t <;> rfl

theorem markManifestAvailable_touched {projectId image : Uuid}
    (h : u.markManifestAvailable projectId k image = some u')
    (hpath : ∀ m ∈ u.manifests, m.id = k → m.sourcePath = path) : u.Touched u' k path := by
  obtain ⟨m, hm, h⟩ := Option.bind_eq_some_iff.mp h
  cases h
  obtain ⟨hmem, rfl, -⟩ := manifest_eq_some hm
  exact .setManifest (m := { m with state := .available, debugImage := some image }) hmem rfl
    (hpath m hmem rfl)

theorem updateManifestState_touched {projectId : Uuid} {state : ManifestState}
    (h : u.updateManifestState projectId k state = some u')
    (hpath : ∀ m ∈ u.manifests, m.id = k → m.sourcePath = path) : u.Touched u' k path := by
  unfold Uploads.updateManifestState at h
  split at h
  · split_ifs at h
    cases h
    exact .of_eq rfl hpath
  · next m hm =>
    split_ifs at h
    · cases h
      exact .of_eq rfl hpath
    · cases h
      obtain ⟨hmem, rfl, -⟩ := manifest_eq_some hm
      exact .setManifest (m := { m with state := state, debugImage := none }) hmem rfl
        (hpath m hmem rfl)

theorem insertSession_manifests {manifestId id : Uuid} {now : Nat}
    (h : u.insertSession a manifestId id now = some u') : u'.manifests = u.manifests := by
  obtain ⟨-, -, -, -, -, hmanifests, -⟩ := insertSession_eq_some h
  exact hmanifests

end touched

section points
variable {s s' : State} {a : ValidatedArtifact} {newId : Uuid} {image : Option Uuid}
  {n : NegotiationStep} {n' : Option NegotiationStep}

/-- A statement before the upsert leaves the rows alone. The others touch one row. -/
theorem negotiateNext_touched (h : negotiateNext s a newId image n = some (s', n'))
    (hpath : ∀ k ∈ n.manifestId, ∀ m ∈ s.uploads.manifests, m.id = k → m.sourcePath = a.path) :
    (n.manifestId = none ∧ s'.uploads.manifests = s.uploads.manifests ∧
      ∀ x ∈ n', x.manifestId = none) ∨
    ∃ k, s.uploads.Touched s'.uploads k a.path ∧ (∀ x ∈ n', x.manifestId = some k) ∧
      (n.manifestId = some k ∨ n.manifestId = none ∧ n.upserts ∧
        ((∀ m ∈ s.uploads.manifests, m.id ≠ k) ∨ ∃ m ∈ s.uploads.manifestAt a, m.id = k)) := by
  cases n with
  | upsertManifest =>
    dsimp only [negotiateNext] at h
    split at h
    · cases h
    · cases h
      exact .inl ⟨rfl, rfl, fun x hx => by cases hx; rfl⟩
    · next k u hu =>
      cases h
      obtain ⟨htouched, hrow⟩ := tryUpsert_touched hu
      exact .inr ⟨k, htouched, fun x hx => by cases hx; rfl, .inr ⟨rfl, rfl, hrow⟩⟩
  | retireReplaced =>
    cases h
    rw [abortMultipart_uploads]
    exact .inl ⟨rfl, abort_manifests _, fun x hx => by cases hx; rfl⟩
  | upsertAgain =>
    dsimp only [negotiateNext] at h
    split at h
    · cases h
    · cases h
    · next k u hu =>
      cases h
      obtain ⟨htouched, hrow⟩ := tryUpsert_touched hu
      exact .inr ⟨k, htouched, fun x hx => by cases hx; rfl, .inr ⟨rfl, rfl, hrow⟩⟩
  | findMatchingImage k =>
    refine .inr ⟨k, ?_, ?_, .inl rfl⟩
    · dsimp only [negotiateNext] at h
      split at h <;> split_ifs at h <;> cases h <;> exact .of_eq rfl (hpath k rfl)
    · dsimp only [negotiateNext] at h
      intro x hx
      split at h <;> split_ifs at h <;> cases h <;> cases hx <;> rfl
  | markAvailable k image =>
    obtain ⟨u, hu, h⟩ := Option.bind_eq_some_iff.mp h
    cases h
    exact .inr ⟨k, markManifestAvailable_touched hu (hpath k rfl), nofun, .inl rfl⟩
  | hasChecksum k =>
    cases h
    refine .inr ⟨k, .of_eq rfl (hpath k rfl), fun x hx => ?_, .inl rfl⟩
    cases hx
    split_ifs <;> rfl
  | markMismatch k =>
    obtain ⟨u, hu, h⟩ := Option.bind_eq_some_iff.mp h
    cases h
    exact .inr ⟨k, updateManifestState_touched hu (hpath k rfl), nofun, .inl rfl⟩
  | markMissing k =>
    obtain ⟨u, hu, h⟩ := Option.bind_eq_some_iff.mp h
    cases h
    exact .inr ⟨k, updateManifestState_touched hu (hpath k rfl), fun x hx => by cases hx; rfl,
      .inl rfl⟩
  | retireStale k =>
    cases h
    rw [abortMultipart_uploads]
    exact .inr ⟨k, .of_eq (abort_manifests _) (hpath k rfl), fun x hx => by cases hx; rfl,
      .inl rfl⟩
  | checkConflict k =>
    dsimp only [negotiateNext] at h
    split_ifs at h
    cases h
    exact .inr ⟨k, .of_eq rfl (hpath k rfl), fun x hx => by cases hx; rfl, .inl rfl⟩
  | loadActive k =>
    cases h
    refine .inr ⟨k, .of_eq rfl (hpath k rfl), fun x hx => ?_, .inl rfl⟩
    split_ifs at hx
    · cases hx
    · cases hx
      rfl
  | create k =>
    obtain ⟨u, hu, h⟩ := Option.bind_eq_some_iff.mp h
    cases h
    exact .inr ⟨k, .of_eq (insertSession_manifests hu) (hpath k rfl), nofun, .inl rfl⟩

/-! ## Points of a request -/

/-- The artifacts whose row is not written yet. -/
def Point.pending (p : Point) : List ValidatedArtifact :=
  if p.step.manifestId = none then p.remaining else p.remaining.tail

/-- The row in work has the path of the artifact in work. The rows of the other artifacts to come
are those from before the request. -/
structure Point.Within (s : State) (r : NegotiationRequest) (p : Point) : Prop where
  suffix : p.remaining <:+ r.artifacts
  path : ∀ k ∈ p.step.manifestId, ∀ a ∈ p.remaining.head?, ∀ m ∈ p.state.uploads.manifests,
    m.id = k → m.sourcePath = a.path
  old : ∀ a ∈ p.pending, ∀ m ∈ p.state.uploads.manifests, m.sourcePath = a.path →
    m ∈ s.uploads.manifests

/-- The redeclared rows are untouched, also by the statements to come on the artifact in work. -/
def Point.Untouched (s : State) (r : NegotiationRequest) (p : Point) : Prop :=
  ∀ m, Redeclared s r m → m ∈ p.state.uploads.manifests ∧ ∀ k ∈ p.step.manifestId, m.id ≠ k

variable {r : NegotiationRequest} {p p' : Point} {before : List Point}

/-- A statement with its artifact, and the two ways on from it. -/
theorem next_eq_some (h : p.next newId image = some p') : ∃ a rest s' n',
    p.remaining = a :: rest ∧ negotiateNext p.state a newId image p.step = some (s', n') ∧
      p'.state = s' ∧ ((∃ x, n' = some x ∧ p'.remaining = a :: rest ∧ p'.step = x) ∨
        (n' = none ∧ p'.remaining = rest ∧ p'.step = .upsertManifest)) := by
  unfold Point.next at h
  cases hremaining : p.remaining with
  | nil =>
    rw [hremaining] at h
    cases h
  | cons a rest =>
    rw [hremaining] at h
    obtain ⟨⟨s', n'⟩, hs, h⟩ := Option.bind_eq_some_iff.mp h
    cases n' with
    | some x =>
      cases h
      exact ⟨a, rest, s', some x, rfl, hs, rfl, .inl ⟨x, rfl, rfl, rfl⟩⟩
    | none =>
      cases h
      exact ⟨a, rest, s', none, rfl, hs, rfl, .inr ⟨rfl, rfl, rfl⟩⟩

theorem path_ne_of_suffix {rest : List ValidatedArtifact} (h : a :: rest <:+ r.artifacts) :
    ∀ b ∈ rest, b.path ≠ a.path := by
  have hnodup : ((a :: rest).map ValidatedArtifact.path).Nodup :=
    r.paths.sublist (h.sublist.map _)
  rw [List.map_cons, List.nodup_cons] at hnodup
  exact fun b hb heq => hnodup.1 (List.mem_map.mpr ⟨b, hb, heq⟩)

theorem Point.Within.next (h : p.Within s r) (hp : p.next newId image = some p') :
    p'.Within s r := by
  obtain ⟨a, rest, s', n', hremaining, hs, rfl, hnext⟩ := next_eq_some hp
  have hsuffix := h.suffix
  have hpath := h.path
  have hold := h.old
  unfold Point.pending at hold
  rw [hremaining] at hsuffix hpath hold
  have hrest : rest <:+ r.artifacts := (List.suffix_cons a rest).trans hsuffix
  rcases negotiateNext_touched hs fun k hk => hpath k hk a rfl with
    ⟨hnone, hmanifests, hstep⟩ | ⟨k, htouched, hstep, hrow⟩
  · rw [if_pos hnone] at hold
    rcases hnext with ⟨x, hx, hremaining', hx'⟩ | ⟨-, hremaining', hx'⟩
    · refine ⟨hremaining' ▸ hsuffix, ?_, ?_⟩
      · rw [hx', hstep x hx]
        nofun
      · unfold Point.pending
        rw [hx', hstep x hx, hremaining', hmanifests]
        exact hold
    · refine ⟨hremaining' ▸ hrest, by rw [hx']; nofun, ?_⟩
      unfold Point.pending
      rw [hx', hremaining', hmanifests]
      exact fun b hb => hold b (List.mem_cons_of_mem _ hb)
  · have hlater : ∀ b ∈ rest, ∀ m ∈ p'.state.uploads.manifests, m.sourcePath = b.path →
        m ∈ s.uploads.manifests := by
      intro b hb m hm hmpath
      have hne : m.id ≠ k := fun hk =>
        path_ne_of_suffix hsuffix b hb (hmpath.symm.trans (htouched.path m hm hk))
      refine hold b ?_ m ((htouched.kept m hne).mp hm) hmpath
      split_ifs
      · exact List.mem_cons_of_mem _ hb
      · exact hb
    rcases hnext with ⟨x, hx, hremaining', hx'⟩ | ⟨-, hremaining', hx'⟩
    · refine ⟨hremaining' ▸ hsuffix, ?_, ?_⟩
      · rw [hx', hstep x hx, hremaining']
        intro k' hk' b hb
        cases hk'
        cases hb
        exact htouched.path
      · unfold Point.pending
        rw [hx', hstep x hx, hremaining', if_neg nofun]
        exact hlater
    · refine ⟨hremaining' ▸ hrest, by rw [hx']; nofun, ?_⟩
      unfold Point.pending
      rw [hx', hremaining']
      exact hlater

theorem Point.Untouched.next (h : p.Untouched s r) (hw : p.Within s r) (hspares : p.Spares)
    (hp : p.next newId image = some p') : p'.Untouched s r := by
  intro m hm
  obtain ⟨hmem, hother⟩ := h m hm
  obtain ⟨a, rest, s', n', hremaining, hs, rfl, hnext⟩ := next_eq_some hp
  have hpath := hw.path
  have hsuffix := hw.suffix
  rw [hremaining] at hpath hsuffix
  rcases negotiateNext_touched hs fun k hk => hpath k hk a rfl with
    ⟨-, hmanifests, hstep⟩ | ⟨k, htouched, hstep, hrow⟩
  · refine ⟨hmanifests ▸ hmem, ?_⟩
    rcases hnext with ⟨x, hx, -, hx'⟩ | ⟨-, -, hx'⟩
    · rw [hx', hstep x hx]
      nofun
    · rw [hx']
      nofun
  · have hne : m.id ≠ k := by
      rcases hrow with hk | ⟨-, hupserts, hfresh | ⟨m₀, hm₀, rfl⟩⟩
      · exact hother k hk
      · exact hfresh m hmem
      · intro hid
        obtain ⟨hmem₀, -, hpath₀⟩ := manifestAt_eq_some hm₀
        obtain rfl := Table.eq_of_key_eq hmem hmem₀ hid
        obtain ⟨-, havailable, b, hb, hdeclares⟩ := hm
        have ha : a ∈ r.artifacts := hsuffix.subset List.mem_cons_self
        have hsame : b = a := List.inj_on_of_nodup_map r.paths hb ha
          (hdeclares.2.2.1.symm.trans hpath₀)
        rw [hsame] at hdeclares
        exact hspares hupserts a (by rw [hremaining]; rfl) m hm₀ havailable hdeclares
    refine ⟨(htouched.kept m hne).mpr hmem, ?_⟩
    rcases hnext with ⟨x, hx, -, hx'⟩ | ⟨-, -, hx'⟩
    · rw [hx', hstep x hx]
      intro k' hk'
      cases hk'
      exact hne
    · rw [hx']
      nofun

/-- The upsert over an available row that declares the artifact takes its image away. -/
theorem not_keepsAvailable_of_upsert (hw : p.Within s r) (hspares : ¬ p.Spares)
    (hp : p.next newId image = some p') : ¬ KeepsAvailable s r p' := by
  unfold Point.Spares at hspares
  push Not at hspares
  obtain ⟨hupserts, a, ha, m, hm, havailable, hdeclares⟩ := hspares
  obtain ⟨b, rest, s', n', hremaining, hs, rfl, -⟩ := next_eq_some hp
  rw [hremaining] at ha
  cases ha
  obtain ⟨hmem, -, -⟩ := manifestAt_eq_some hm
  have hwritten : p.state.uploads.tryUpsertManifestArtifact a newId =
      .written m.id (p.state.uploads.setManifest (m.replaced a)) := by
    have hquarantined : ¬ m.state.quarantinedBy.isSome := by
      rw [havailable]
      exact Bool.false_ne_true
    unfold Uploads.tryUpsertManifestArtifact
    rw [show p.state.uploads.manifests.rows.find? _ = some m from hm]
    dsimp only
    rw [if_pos ⟨hdeclares.1, .inr hdeclares.2.2.2⟩, if_neg hquarantined]
  have hstate : p'.state.uploads = p.state.uploads.setManifest (m.replaced a) := by
    cases hstep : p.step with
    | upsertManifest | upsertAgain =>
      rw [hstep] at hs
      dsimp only [negotiateNext] at hs
      rw [hwritten] at hs
      exact congrArg (fun x => x.1.uploads) (Option.some.inj hs).symm
    | _ =>
      rw [hstep] at hupserts
      cases hupserts
  have hpending : a ∈ p.pending := by
    unfold Point.pending
    rw [hremaining]
    split_ifs with hnone
    · exact List.mem_cons_self
    · cases hstep : p.step with
      | upsertManifest | upsertAgain => exact absurd (by rw [hstep]; rfl) hnone
      | _ =>
        rw [hstep] at hupserts
        cases hupserts
  have hin : a ∈ r.artifacts := hw.suffix.subset (by rw [hremaining]; exact List.mem_cons_self)
  have hredeclared : Redeclared s r m :=
    ⟨hw.old a hpending m hmem hdeclares.2.2.1, havailable, a, hin, hdeclares⟩
  intro hkeeps
  obtain ⟨m', hm', hid, havailable', -⟩ := hkeeps m hredeclared
  rw [hstate] at hm'
  rcases (mem_setManifest (m := m.replaced a) hmem rfl).mp hm' with ⟨-, hne⟩ | rfl
  · exact hne hid
  · have hmissing : (m.replaced a).state = .missing := if_neg fun hprocessing => by
      rw [havailable] at hprocessing
      cases hprocessing.1
    rw [hmissing] at havailable'
    cases havailable'

theorem Passes.within (h : Passes s r before p) : p.Within s r := by
  induction h with
  | start => exact ⟨List.suffix_refl _, nofun, fun _ _ m hm _ => hm⟩
  | next h hp ih => exact ih.next hp

theorem Passes.untouched (h : Passes s r before p) (hspares : ∀ q ∈ before, q.Spares) :
    p.Untouched s r := by
  induction h with
  | start => exact fun m hm => ⟨hm.1, nofun⟩
  | next h hp ih =>
    have hbefore := ih fun q hq => hspares q (List.mem_append_left _ hq)
    exact hbefore.next h.within (hspares _ (List.mem_append_right _ (List.mem_singleton_self _))) hp

theorem Point.Untouched.keepsAvailable (h : p.Untouched s r) : KeepsAvailable s r p :=
  fun m hm => ⟨m, (h m hm).1, rfl, hm.2.1, rfl⟩

/-- The points of a request keep the rows that it declares again just when no upsert of the
request meets such a row. -/
theorem keepsAvailable_iff (h : Passes s r before p) :
    (∀ q ∈ before ++ [p], KeepsAvailable s r q) ↔ ∀ q ∈ before, q.Spares := by
  constructor
  · intro hkeeps
    induction h with
    | start => nofun
    | next h hp ih =>
      have hbefore := ih fun q hq => hkeeps q (List.mem_append_left _ hq)
      intro q hq
      rcases List.mem_append.mp hq with hq | hq
      · exact hbefore q hq
      · rw [List.mem_singleton.mp hq]
        by_contra hspares
        exact not_keepsAvailable_of_upsert h.within hspares hp
          (hkeeps _ (List.mem_append_right _ (List.mem_singleton_self _)))
  · intro hspares
    induction h with
    | start =>
      intro q hq
      rw [List.mem_singleton.mp hq]
      exact Point.Untouched.keepsAvailable fun m hm => ⟨hm.1, nofun⟩
    | next h hp ih =>
      have hbefore := ih fun q hq => hspares q (List.mem_append_left _ hq)
      intro q hq
      rcases List.mem_append.mp hq with hq | hq
      · exact hbefore q hq
      · rw [List.mem_singleton.mp hq]
        exact ((h.next hp).untouched hspares).keepsAvailable

end points

section sample

/-- A build that is uploaded and indexed. -/
def indexedBuild : Option State :=
  run (restrict step (InScope fun _ => 1)) (fun _ => True) .init
    (uploadRun 1 1 7 11 21 ++ completeRun 1 21 7 ++ indexRun 21 31 41 51)

/-- A build of one file. -/
def buildOf (checksum : UInt8) : NegotiationRequest where
  artifacts := [⟨1, 1, "game.pdb", sampleIdentity checksum⟩]
  release a ha b hb := by
    rw [List.mem_singleton.mp ha, List.mem_singleton.mp hb]
    exact ⟨rfl, rfl⟩
  paths := List.nodup_singleton _

theorem reachable_indexedBuild {s : State} (hs : indexedBuild = some s) :
    Reachable (restrict step (InScope fun _ => 1)) (fun _ => True) .init s :=
  .of_run (.init trivial) hs

/-- The points before and after the first statement. -/
theorem keepsAvailable_iff_rebuilt :
    ∃ s p, indexedBuild = some s ∧ (Point.start s (buildOf 8)).next 12 none = some p ∧
      ((∀ q ∈ [Point.start s (buildOf 8), p], KeepsAvailable s (buildOf 8) q) ↔
        ∀ q ∈ [Point.start s (buildOf 8)], q.Spares) := by
  have hrun : (indexedBuild.bind fun s => (Point.start s (buildOf 8)).next 12 none).isSome := by
    decide +kernel
  obtain ⟨p, hp⟩ := Option.isSome_iff_exists.mp hrun
  obtain ⟨s, hs, hp⟩ := Option.bind_eq_some_iff.mp hp
  exact ⟨s, p, hs, hp, keepsAvailable_iff (.next .start hp)⟩

/-- The same build is negotiated again, and its row is missing after the first statement. -/
theorem not_keepsAvailable_same :
    ¬ ∀ s, Reachable (restrict step (InScope fun _ => 1)) (fun _ => True) .init s →
      ∀ (r : NegotiationRequest) (before : List Point) (p : Point), Passes s r before p →
        KeepsAvailable s r p := by
  intro hkeeps
  have hrun : (indexedBuild.bind fun s => (Point.start s (buildOf 7)).next 12 none).isSome := by
    decide +kernel
  obtain ⟨p, hp⟩ := Option.isSome_iff_exists.mp hrun
  obtain ⟨s, hs, hp⟩ := Option.bind_eq_some_iff.mp hp
  have hspares : ∀ s ∈ indexedBuild, ¬ (Point.start s (buildOf 7)).Spares := by
    decide +kernel
  have hpasses : Passes s (buildOf 7) [.start s (buildOf 7)] p := .next .start hp
  refine not_keepsAvailable_of_upsert (Passes.within .start) (hspares s hs) hp ?_
  exact hkeeps s (reachable_indexedBuild hs) (buildOf 7) _ p hpasses

end sample

end FaultLane.SymbolUpload
