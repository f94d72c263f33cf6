import FaultLane.CrashJob
import FaultLane.ReleaseArtifacts
import FaultLane.SymCacheResolution

set_option autoImplicit false

/-!
# One cache for each debug identifier

The caches that a crash job hands to the processor, against the processor's refusal of two
caches with one identifier.
-/
namespace FaultLane.CrashJob
open SqlRow SqlRow.Outcome CrashSymbols SymbolUpload KeyedTable TransitionSystem
open SymCacheResolution (Externals SymCacheArtifact collectArtifacts)

/-- How the database prints the keys of an object. -/
structure ObjectTexts where
  uuid : JobQueue.Uuid → String
  objectKey : ObjectKey → String

def ObjectTexts.row (t : ObjectTexts) (m : ManifestArtifact) (o : ArtifactObject) :
    ArtifactRow where
  artifactType := m.identity.artifactType
  moduleName := m.identity.moduleName
  architecture := m.identity.architecture
  debugId := m.identity.debugId
  codeId := m.identity.codeId
  objectId := t.uuid o.id
  objectKey := t.objectKey o.objectKey
  checksum := o.checksum
  byteSize := Int64.ofNat o.byteSize

/-- The answers to the select of artifacts are the rows of a release of the project, in any
order. -/
def World.Selects (w : World) (t : ObjectTexts) (u : Uploads) (projectId : JobQueue.Uuid) :
    Prop :=
  ∀ id rows, w.fetch (.releaseArtifacts id) = some rows → ∃ releaseId,
    rows.Perm ((u.releaseArtifacts projectId releaseId).map fun p => t.row p.1 p.2)

/-! ## Selected artifacts -/

def ArtifactRow.selected (r : ArtifactRow) : SelectedArtifact :=
  ⟨r.objectId, r.objectKey, r.checksum, r.byteSize.toInt, r.artifactType.text, r.moduleName,
    r.architecture, r.debugId, r.codeId⟩

theorem selectedArtifact_eq (r : ArtifactRow) : selectedArtifact r = .ok r.selected := by
  cases r with
  | mk artifactType moduleName architecture debugId codeId objectId objectKey checksum byteSize =>
    cases codeId with
    | none => rfl
    | some codeId => rfl

/-- The selected artifacts are of distinct objects, and each is a row that a module matches. -/
theorem selectArtifacts_eq_ok {modules : List ModuleIdentity} {architecture : String}
    {rows : List ArtifactRow} {selected out : List SelectedArtifact}
    (h : selectArtifacts modules architecture rows selected = .ok out)
    (hn : (selected.map SelectedArtifact.objectId).Nodup) :
    (out.map SelectedArtifact.objectId).Nodup ∧ ∀ artifact ∈ out, artifact ∈ selected ∨
      ∃ r ∈ rows, artifact = r.selected ∧
        ∃ module ∈ modules, artifact.matchesModule module architecture := by
  induction rows generalizing selected with
  | nil =>
    cases h
    exact ⟨hn, fun artifact ha => .inl ha⟩
  | cons r rest ih =>
    rw [selectArtifacts, selectedArtifact_eq, ok_bind] at h
    dsimp only at h
    by_cases hm : (modules.any (r.selected.matchesModule · architecture) &&
        selected.all (·.objectId != r.selected.objectId)) = true
    · rw [if_pos hm] at h
      obtain ⟨hany, hall⟩ := Bool.and_eq_true_iff.mp hm
      have hfresh : r.selected.objectId ∉ selected.map SelectedArtifact.objectId := by
        intro hmem
        obtain ⟨x, hx, hid⟩ := List.mem_map.mp hmem
        exact bne_iff_ne.mp (List.all_eq_true.mp hall x hx) hid
      have hn' : ((selected ++ [r.selected]).map SelectedArtifact.objectId).Nodup := by
        rw [List.map_append, List.map_singleton]
        exact List.nodup_append_comm.mp (List.nodup_cons.mpr ⟨hfresh, hn⟩)
      obtain ⟨hnodup, hsource⟩ := ih h hn'
      refine ⟨hnodup, fun artifact ha => ?_⟩
      rcases hsource artifact ha with hold | ⟨x, hx, hrest⟩
      · rcases List.mem_append.mp hold with hold | hnew
        · exact .inl hold
        · obtain rfl := List.mem_singleton.mp hnew
          exact .inr ⟨r, List.mem_cons_self, rfl, List.any_eq_true.mp hany⟩
      · exact .inr ⟨x, List.mem_cons_of_mem r hx, hrest⟩
    · rw [if_neg hm] at h
      obtain ⟨hnodup, hsource⟩ := ih h hn
      refine ⟨hnodup, fun artifact ha => ?_⟩
      rcases hsource artifact ha with hold | ⟨x, hx, hrest⟩
      · exact .inl hold
      · exact .inr ⟨x, List.mem_cons_of_mem r hx, hrest⟩

/-- The entries are of some of the artifacts, in their order. -/
theorem collectCaches_eq_ok {w : World} {artifacts : List SelectedArtifact}
    {entries out : List (String × String)}
    (h : collectCaches w artifacts entries = .ok (some out)) :
    ∃ kept : List SelectedArtifact, kept.Sublist artifacts ∧
      out.map Prod.fst = entries.map Prod.fst ++ kept.map SelectedArtifact.debugId := by
  induction artifacts generalizing entries with
  | nil =>
    cases h
    exact ⟨[], .slnil, (List.append_nil _).symm⟩
  | cons artifact rest ih =>
    obtain ⟨state, -, h⟩ := bind_eq_ok.mp h
    cases state with
    | pending => cases h
    | unavailable =>
      obtain ⟨kept, hkept, hout⟩ := ih h
      exact ⟨kept, hkept.cons artifact, hout⟩
    | available key checksum size =>
      obtain ⟨⟨actualSize, actualChecksum⟩, -, h⟩ := bind_eq_ok.mp h
      obtain ⟨-, -, h⟩ := bind_eq_ok.mp h
      obtain ⟨kept, hkept, hout⟩ := ih h
      refine ⟨artifact :: kept, hkept.cons_cons artifact, ?_⟩
      rw [hout, List.map_append, List.append_assoc]
      rfl

theorem materializeSymbols_eq_ready {w : World} {result : Json} {release : ReleaseResolution}
    {entries : List (String × String)}
    (h : materializeSymbols w result release = .ok (.ready entries)) :
    ∃ id rows modules architecture, ∃ selected kept : List SelectedArtifact,
      w.fetch (.releaseArtifacts id) = some rows ∧
      processingModules result = .ok modules ∧
      selectArtifacts modules architecture rows [] = .ok selected ∧
      kept.Sublist (selected.filter (·.artifactType == "pdb")) ∧
      entries.map Prod.fst = kept.map SelectedArtifact.debugId := by
  unfold materializeSymbols at h
  split at h
  · cases h
  · next id hid =>
    obtain ⟨lookup, -, h⟩ := bind_eq_ok.mp h
    obtain ⟨modules, hmodules, h⟩ := bind_eq_ok.mp h
    obtain ⟨rows, hrows, h⟩ := bind_eq_ok.mp h
    obtain ⟨selected, hselected, h⟩ := bind_eq_ok.mp h
    split at h
    · cases h
    · obtain ⟨-, -, h⟩ := bind_eq_ok.mp h
      obtain ⟨caches, hcaches, h⟩ := bind_eq_ok.mp h
      cases caches with
      | none => cases h
      | some out =>
        have hmodules : processingModules result = .ok modules := by
          cases hp : processingModules result with
          | ok value =>
            rw [hp] at hmodules
            cases hmodules
            rfl
          | error e =>
            rw [hp] at hmodules
            cases hmodules
        have hout : out = entries := by
          have hready : (if out.isEmpty then SymbolSelection.missing else .ready out) =
              .ready entries := Outcome.ok.inj h
          split at hready
          · cases hready
          · exact SymbolSelection.ready.inj hready
        subst hout
        obtain ⟨kept, hkept, hmap⟩ := collectCaches_eq_ok hcaches
        exact ⟨id, rows, modules, lookup.architecture, selected, kept, okOr_eq_ok.mp hrows,
          hmodules, hselected, hkept, hmap⟩

/-! ## Distinct caches -/

theorem ArtifactRow.selected_pdb {r : ArtifactRow} (h : r.selected.artifactType = "pdb") :
    r.artifactType = .pdb := by
  have htext : r.artifactType.text = "pdb" := h
  cases hr : r.artifactType with
  | pdb => rfl
  | peExecutable | peDynamicLibrary =>
    rw [hr] at htext
    exact absurd htext (by decide)

theorem matchesModule_debugId {artifact : SelectedArtifact} {module : ModuleIdentity}
    {architecture : String} (h : artifact.matchesModule module architecture = true) :
    module.debugId = some artifact.debugId := by
  obtain ⟨-, h⟩ := Bool.and_eq_true_iff.mp h
  split at h
  · exact beq_iff_eq.mp h
  · obtain ⟨h, -⟩ := Bool.and_eq_true_iff.mp h
    exact beq_iff_eq.mp (Bool.and_eq_true_iff.mp h).2

/-- A row of an answer is a manifest row with its object. -/
theorem World.Selects.mem {w : World} {t : ObjectTexts} {u : Uploads}
    {projectId : JobQueue.Uuid} (h : w.Selects t u projectId) {id : String}
    {rows : List ArtifactRow} (hrows : w.fetch (.releaseArtifacts id) = some rows) :
    ∃ releaseId, ∀ r ∈ rows, ∃ p ∈ u.releaseArtifacts projectId releaseId, t.row p.1 p.2 = r := by
  obtain ⟨releaseId, hperm⟩ := h id rows hrows
  exact ⟨releaseId, fun r hr => List.mem_map.mp (hperm.mem_iff.mp hr)⟩

theorem distinct_of_apart {u : Uploads} (ha : u.Apart) {t : ObjectTexts} {w : World}
    {projectId : JobQueue.Uuid} (hw : w.Selects t u projectId) {result : Json}
    {release : ReleaseResolution} {entries : List (String × String)}
    (h : materializeSymbols w result release = .ok (.ready entries)) :
    (entries.map Prod.fst).Nodup := by
  obtain ⟨id, rows, modules, architecture, selected, kept, hrows, -, hselected, hkept, hmap⟩ :=
    materializeSymbols_eq_ready h
  obtain ⟨releaseId, hrow⟩ := hw.mem hrows
  obtain ⟨hnodup, hsource⟩ := selectArtifacts_eq_ok hselected List.nodup_nil
  have hobjects : (kept.map SelectedArtifact.objectId).Nodup :=
    hnodup.sublist ((hkept.trans List.filter_sublist).map SelectedArtifact.objectId)
  have horigin : ∀ artifact ∈ kept, ∃ p ∈ u.releaseArtifacts projectId releaseId,
      artifact = (t.row p.1 p.2).selected ∧ p.1.identity.artifactType = .pdb := by
    intro artifact hmem
    obtain ⟨hmem, hpdb⟩ := List.mem_filter.mp (hkept.subset hmem)
    rcases hsource artifact hmem with hnone | ⟨r, hr, rfl, -⟩
    · cases hnone
    · obtain ⟨p, hp, rfl⟩ := hrow r hr
      exact ⟨p, hp, rfl, ArtifactRow.selected_pdb (beq_iff_eq.mp hpdb)⟩
  have hsame : ∀ a ∈ kept, ∀ b ∈ kept, a.debugId = b.debugId → a.objectId = b.objectId := by
    intro a hamem b hbmem hdebug
    obtain ⟨p, hp, rfl, hpdb⟩ := horigin a hamem
    obtain ⟨q, hq, rfl, hqdb⟩ := horigin b hbmem
    have hsum := ha projectId releaseId p hp q hq hpdb hqdb hdebug
    have hobject := Table.eq_of_key_eq (mem_releaseArtifacts.mp hp).2.1
      (mem_releaseArtifacts.mp hq).2.1 hsum
    exact congrArg (fun o : ArtifactObject => t.uuid o.id) hobject
  rw [hmap]
  refine List.Nodup.map_on (fun a hamem b hbmem hdebug => ?_) (List.Nodup.of_map _ hobjects)
  exact List.inj_on_of_nodup_map hobjects hamem hbmem (hsame a hamem b hbmem hdebug)

section processor
variable {DebugId : Type} [DecidableEq DebugId] {ext : Externals DebugId}

/-- Caches whose identifiers are printed, distinct and new are taken. -/
theorem collectArtifacts_of_nodup {print : DebugId → String}
    (hprint : ∀ d, ext.debugIdFromStr (print d) = some d) {symcaches : List SymCacheArtifact}
    (hprinted : ∀ a ∈ symcaches, ∃ d, a.debugId = print d)
    (hn : (symcaches.map SymCacheArtifact.debugId).Nodup)
    {artifacts : SymCacheResolution.Artifacts DebugId}
    (hnew : ∀ entry ∈ artifacts, print entry.1 ∉ symcaches.map SymCacheArtifact.debugId) :
    ∃ out, collectArtifacts ext artifacts symcaches = .ok out := by
  induction symcaches generalizing artifacts with
  | nil => exact ⟨artifacts, rfl⟩
  | cons a rest ih =>
    obtain ⟨d, hd⟩ := hprinted a List.mem_cons_self
    obtain ⟨hhead, htail⟩ := List.nodup_cons.mp hn
    have hfree : ¬ ∃ entry ∈ artifacts, entry.1 = d := by
      rintro ⟨entry, hentry, rfl⟩
      refine hnew entry hentry ?_
      rw [List.map_cons, hd]
      exact List.mem_cons_self
    have hrest : ∀ entry ∈ (d, a) :: artifacts,
        print entry.1 ∉ rest.map SymCacheArtifact.debugId := by
      intro entry hentry
      rcases List.mem_cons.mp hentry with rfl | hentry
      · exact hd ▸ hhead
      · exact fun hmem => hnew entry hentry (List.mem_cons_of_mem _ hmem)
    obtain ⟨out, hout⟩ := ih (fun b hb => hprinted b (List.mem_cons_of_mem a hb)) htail hrest
    refine ⟨out, ?_⟩
    rw [collectArtifacts, hd, hprint, Fallible.okOr_some, Fallible.ok_bind,
      Fallible.refuse_of_not hfree, Fallible.ok_bind]
    exact hout

/-- In every state that the runs reach in which a row becomes available only where its release
admits its content, the caches have distinct identifiers, and the processor takes them. -/
theorem materializeSymbols_distinct {s : SymbolUpload.State}
    (hs : Reachable (restrict step KeepsApart) (fun _ => True) .init s) {t : ObjectTexts}
    {w : World} {projectId : JobQueue.Uuid} (hw : w.Selects t s.uploads projectId)
    {print : DebugId → String} (hprint : ∀ d, ext.debugIdFromStr (print d) = some d)
    {result : Json} (hmodules : ∀ modules, processingModules result = .ok modules →
      ∀ module ∈ modules, ∀ text ∈ module.debugId, ∃ d, text = print d)
    {release : ReleaseResolution} {entries : List (String × String)}
    (h : materializeSymbols w result release = .ok (.ready entries)) :
    (entries.map Prod.fst).Nodup ∧ ∀ symcaches : List SymCacheArtifact,
      symcaches.map SymCacheArtifact.debugId = entries.map Prod.fst →
        ∃ artifacts, collectArtifacts ext [] symcaches = .ok artifacts := by
  have hnodup := distinct_of_apart (keptApart_of_reachable hs).2 hw h
  refine ⟨hnodup, fun symcaches hsymcaches => ?_⟩
  refine collectArtifacts_of_nodup hprint (fun a ha => ?_) (hsymcaches ▸ hnodup) nofun
  obtain ⟨id, rows, modules, architecture, selected, kept, -, hparsed, hselected, hkept, hmap⟩ :=
    materializeSymbols_eq_ready h
  obtain ⟨-, hsource⟩ := selectArtifacts_eq_ok hselected List.nodup_nil
  have hdebug : a.debugId ∈ kept.map SelectedArtifact.debugId := by
    rw [← hmap, ← hsymcaches]
    exact List.mem_map_of_mem ha
  obtain ⟨artifact, hartifact, hid⟩ := List.mem_map.mp hdebug
  rcases hsource artifact (List.mem_filter.mp (hkept.subset hartifact)).1 with hnone | hfound
  · cases hnone
  · obtain ⟨r, -, -, module, hmodule, hmatch⟩ := hfound
    exact hmodules modules hparsed module hmodule a.debugId
      (hid ▸ matchesModule_debugId hmatch)

end processor

/-! ## A relinked PDB under a second path -/

section sample
open SymCacheResolution (sampleId sampleExternals)

/-- A negotiation of a PDB of the sample module, which ends with a new session. -/
def buildRun (id : JobQueue.Uuid) (path : String) (checksum : UInt8)
    (manifestId upload : JobQueue.Uuid) : List Action :=
  .startNegotiation id ⟨1, 2, path, ⟨[checksum], 1, .pdb, "game.pdb", "x86_64", sampleId, none⟩⟩ ::
    .negotiate id manifestId none :: List.replicate 6 (.negotiate id 0 none) ++
      [.negotiate id upload none]

def oneBuild : List Action :=
  buildRun 1 "game.pdb" 7 11 21 ++ completeRun 1 21 7 ++ indexRun 21 31 41 51

def twoBuilds : List Action :=
  oneBuild ++ buildRun 2 "steam/game.pdb" 8 12 22 ++ completeRun 2 22 8 ++ indexRun 22 32 42 52

def sampleTexts : ObjectTexts := ⟨fun id => toString id, fun key => "uploads/" ++ toString key⟩

def buildRows (u : Uploads) : {α : Type} → Query α → Option (List α)
  | _, .releaseArtifacts _ => some ((u.releaseArtifacts 1 2).map fun p => sampleTexts.row p.1 p.2)
  | _, .cache objectId =>
    some [⟨"cache", "1", .available, "caches/" ++ objectId, some (List.replicate 32 0), some 1,
      fun _ => ⟨rfl, rfl⟩⟩]
  | _, _ => none

/-- A world that finds the artifacts of the release, each with its cache. -/
def buildWorld (u : Uploads) : World where
  unicode _ := false
  sha256 _ := []
  fromSlice _ := none
  toVec _ := none
  randomUuid _ := some "new"
  scratch _ := true
  download _ := .ok (1, List.replicate 32 0)
  processor _ := .error .unavailable
  fetch := buildRows u
  execute _ := none
  commits := false
  groupingEnabled := false
  enforcementEnabled := false
  reservoirSelected _ := false

theorem buildWorld_selects (u : Uploads) : (buildWorld u).Selects sampleTexts u 1 := by
  intro id rows hrows
  cases hrows
  exact ⟨2, .refl _⟩

/-- The result of a dump with the sample module. -/
def moduleResult : Json :=
  .object [("current", .object [("symbolication", .object [("modules", .array
    [.object [("code_id", .null), ("debug_id", .string sampleId),
      ("module", .string "game.exe")]])])])]

def sampleRelease : ReleaseResolution :=
  ⟨some ⟨"1.0", "windows", "x86_64", "shipping"⟩, ["release"]⟩

def readyEntries : Run SymbolSelection → Option (List (String × String))
  | .ok (.ready entries) => some entries
  | _ => none

theorem readyEntries_eq_some {x : Run SymbolSelection} {entries : List (String × String)} :
    readyEntries x = some entries ↔ x = .ok (.ready entries) := by
  constructor
  · intro h
    unfold readyEntries at h
    split at h
    · cases h
      rfl
    · cases h
  · rintro rfl
    rfl

theorem moduleResult_printed : ∀ modules, processingModules moduleResult = .ok modules →
    ∀ module ∈ modules, ∀ text ∈ module.debugId, ∃ d : String, text = id d :=
  fun _ _ _ _ text _ => ⟨text, rfl⟩

theorem materializeSymbols_distinct_oneBuild : ∃ s entries,
    Reachable (restrict step KeepsApart) (fun _ => True) .init s ∧
      materializeSymbols (buildWorld s.uploads) moduleResult sampleRelease = .ok (.ready entries) ∧
      entries = [(sampleId, "caches/41")] ∧ (entries.map Prod.fst).Nodup := by
  have hrun : (run (restrict step KeepsApart) (fun _ => True) .init oneBuild).isSome := by
    decide +kernel
  obtain ⟨s, hs⟩ := Option.isSome_iff_exists.mp hrun
  have hreach := Reachable.of_run (.init trivial) hs
  have hready : ∀ v ∈ run (restrict step KeepsApart) (fun _ => True) .init oneBuild,
      readyEntries (materializeSymbols (buildWorld v.uploads) moduleResult sampleRelease) =
        some [(sampleId, "caches/41")] := by
    decide +kernel
  have hentries := readyEntries_eq_some.mp (hready s hs)
  have hprint : ∀ d, sampleExternals.debugIdFromStr (id d) = some d := fun _ => rfl
  have hdistinct := materializeSymbols_distinct hreach (buildWorld_selects s.uploads) hprint
    moduleResult_printed hentries
  exact ⟨s, _, hreach, hentries, rfl, hdistinct.1⟩

/-- A second PDB with the same debug identifier is indexed under another path, and the
processor refuses the caches of the two. -/
theorem materializeSymbols_twoBuilds :
    ¬ ∀ s, Reachable step (fun _ => True) .init s → ∀ (t : ObjectTexts) (w : World),
      w.Selects t s.uploads 1 → ∀ (result : Json) (release : ReleaseResolution) entries,
        materializeSymbols w result release = .ok (.ready entries) →
          (entries.map Prod.fst).Nodup ∧ ∀ symcaches : List SymCacheArtifact,
            symcaches.map SymCacheArtifact.debugId = entries.map Prod.fst →
              collectArtifacts sampleExternals [] symcaches ≠ .error .invalidSymCache := by
  intro h
  have hrun : (run step (fun _ => True) .init twoBuilds).isSome := by
    decide +kernel
  obtain ⟨s, hs⟩ := Option.isSome_iff_exists.mp hrun
  have hready : ∀ v ∈ run step (fun _ => True) .init twoBuilds,
      readyEntries (materializeSymbols (buildWorld v.uploads) moduleResult sampleRelease) =
        some [(sampleId, "caches/42"), (sampleId, "caches/41")] := by
    decide +kernel
  have hentries := readyEntries_eq_some.mp (hready s hs)
  obtain ⟨-, haccepted⟩ := h s (Reachable.of_run (.init trivial) hs) sampleTexts
    (buildWorld s.uploads) (buildWorld_selects s.uploads) moduleResult sampleRelease _ hentries
  exact haccepted [⟨sampleId, "42.symcache"⟩, ⟨sampleId, "41.symcache"⟩] rfl rfl

end sample
end FaultLane.CrashJob
