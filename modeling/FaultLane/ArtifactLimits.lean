import FaultLane.CrashWorld
import FaultLane.SymbolUploadIndexing
import FaultLane.SortDedup

set_option autoImplicit false

/-!
# Size limits on the path of an artifact

What a negotiation accepts, how its upload is cut into parts, what the index job makes of it and
which selections a crash job takes. The negotiation and the worker state their limits apart.
-/
namespace FaultLane.ArtifactLimits
open Fallible RustText CrashSymbols JobQueue KeyedTable SymbolUpload TransitionSystem
open CrashJob (ObjectError mapArtifactObjectError)

def maxArtifacts : Nat := 512
def maxArtifactBytes : Nat := 16 * 1024 * 1024 * 1024
def maxTotalBytes : Nat := 64 * 1024 * 1024 * 1024
def partBytes : Nat := 8 * 1024 * 1024
def maxParts : Nat := 10000
def maxTextBytes : Nat := 256

/-- The limit of the worker on one artifact. -/
def maxIndexedBytes : Nat := 1024 * 1024 * 1024

/-! ## Negotiation requests -/

structure ReleaseRequest where
  version : String
  platform : String
  architecture : String
  configuration : String
  revision : Option String
  channel : Option String
  buildTimestamp : Option String

structure ArtifactRequest where
  path : String
  module : String
  artifactType : String
  architecture : String
  byteSize : Nat
  sha256 : String
  debugId : String
  codeId : Option String

structure NegotiateRequest where
  release : ReleaseRequest
  artifacts : List ArtifactRequest
  cliVersion : String
  ciJob : Option String

/-- A path of a release, and what is declared of the file behind it. -/
structure DeclaredArtifact where
  path : String
  identity : ArtifactIdentity
  deriving DecidableEq

structure ValidatedNegotiation where
  release : ReleaseRequest
  artifacts : List DeclaredArtifact
  cliVersion : String
  ciJob : Option String

def validText (value : String) (max : Nat) : Bool :=
  value ≠ "" && value.utf8ByteSize ≤ max && trim value.toList == value.toList &&
    !value.toList.any isControl

def validOptionalText (value : Option String) (max : Nat) : Bool :=
  value.all fun value => validText value max

def validIdentity (value : String) : Bool :=
  validText value 128 && value.toList.all fun c =>
    (0x41 ≤ c.toNat && c.toNat ≤ 0x5A) || isAsciiDigit c || c == '-'

def validArchitecture (value : String) : Bool := value ∈ ["x86", "x86_64", "arm64"]

local instance lawfulBEq_chars : LawfulBEq (List Char) := inferInstance

def validSourcePath (value : String) : Bool :=
  validText value 512 && value.toList.head? != some '/' && !value.toList.contains '\\' &&
    (value.toList.splitOn '/').all fun part => part ∉ ["".toList, ".".toList, "..".toList]

def validArtifactModule (path module : String) : Bool :=
  (path.toList.splitOn '/').getLast?.any fun name => eqIgnoreAsciiCase name module.toList

def lowerHexNibble (c : Char) : Option Nat :=
  if isAsciiDigit c then some (c.toNat - 0x30)
  else if 0x61 ≤ c.toNat ∧ c.toNat ≤ 0x66 then some (c.toNat - 0x61 + 10)
  else none

def decodeHex : List Char → Option Checksum
  | [] => some []
  | [_] => none
  | high :: low :: rest => do
    let high ← lowerHexNibble high
    let low ← lowerHexNibble low
    let bytes ← decodeHex rest
    return UInt8.ofNat (high * 16 + low) :: bytes

def decodeSha256 (value : String) : Option Checksum :=
  if value.toList.length = 64 then decodeHex value.toList else none

def artifactTypeNamed (name : String) : Option ArtifactType :=
  [ArtifactType.peExecutable, .peDynamicLibrary, .pdb].find? fun kind => kind.text = name

/-- The checks on one artifact that look at nothing but its release. -/
def declaredArtifact (release : ReleaseRequest) (artifact : ArtifactRequest) :
    Option DeclaredArtifact := do
  let checksum ← decodeSha256 artifact.sha256
  let kind ← artifactTypeNamed artifact.artifactType
  if validSourcePath artifact.path && validText artifact.module maxTextBytes &&
      validArtifactModule artifact.path artifact.module &&
      validArchitecture artifact.architecture &&
      artifact.architecture == release.architecture && artifact.byteSize ≠ 0 &&
      artifact.byteSize ≤ maxArtifactBytes && validIdentity artifact.debugId &&
      artifact.codeId.all validIdentity && (kind = .pdb || artifact.codeId.isSome) &&
      !(kind = .pdb && artifact.codeId.isSome) then
    some ⟨artifact.path, ⟨checksum, artifact.byteSize, kind, artifact.module,
      artifact.architecture, artifact.debugId, artifact.codeId⟩⟩
  else none

/-- The loop over the artifacts, with the paths and the bytes so far. -/
def declaredArtifacts (release : ReleaseRequest) :
    List String → Nat → List ArtifactRequest → Option (List DeclaredArtifact)
  | _, _, [] => some []
  | paths, total, artifact :: rest => do
    let declared ← declaredArtifact release artifact
    if artifact.path ∈ paths then none
    else if 2 ^ 64 ≤ total + artifact.byteSize then none
    else if maxTotalBytes < total + artifact.byteSize then none
    else do
      let rest ← declaredArtifacts release (artifact.path :: paths) (total + artifact.byteSize) rest
      return declared :: rest

/-- `ValidatedNegotiation::try_from`. -/
def ValidatedNegotiation.tryFrom (parsesRfc3339 : String → Bool) (request : NegotiateRequest) :
    Option ValidatedNegotiation := do
  let release := request.release
  if request.artifacts.isEmpty || maxArtifacts < request.artifacts.length ||
      !validText release.version 128 || release.platform != "windows" ||
      !validArchitecture release.architecture || !validText release.configuration 32 ||
      !validOptionalText release.revision maxTextBytes || !validOptionalText release.channel 64 ||
      !release.buildTimestamp.all (fun value => value.utf8ByteSize ≤ 64 && parsesRfc3339 value) ||
      !validText request.cliVersion 64 || !validOptionalText request.ciJob maxTextBytes then
    none
  else do
    let artifacts ← declaredArtifacts release [] 0 request.artifacts
    return ⟨release, SortDedup.sortBy (fun a => a.path.toList) artifacts, request.cliVersion,
      request.ciJob⟩

/-- The parts that `create_session` plans, when it opens a session. -/
def plannedParts (byteSize : Nat) : Option Nat :=
  let partCount := (byteSize + (partBytes - 1)) / partBytes
  if partCount = 0 ∨ maxParts < partCount then none else some partCount

/-! ## The index job -/

structure IndexRecord where
  path : String
  module : String
  artifactType : String
  architecture : Option String
  size : Option Nat
  debugId : Option String
  codeId : Option String
  matchState : String
  matchedPaths : List String
  error : Option String

structure IndexOutput where
  schemaVersion : Nat
  artifacts : List IndexRecord

/-- How `index_artifact` leaves its artifact when it does not end with an error. -/
inductive IndexEnd where
  | published
  | failure (code : String) (quarantine : Bool)
  deriving DecidableEq

def artifactName : ArtifactType → String
  | .pdb => "artifact.pdb"
  | .peExecutable => "artifact.exe"
  | .peDynamicLibrary => "artifact.dll"

/-- The record is one of the file that was downloaded, as it was declared. -/
def IndexRecord.describes (record : IndexRecord) (declared : ArtifactIdentity) : Bool :=
  record.path == artifactName declared.artifactType &&
    sameIgnoringCase record.module record.path &&
    record.artifactType == declared.artifactType.text &&
    record.architecture == some declared.architecture &&
    record.debugId == some declared.debugId && record.codeId == declared.codeId &&
    record.size == some declared.byteSize &&
    record.matchState ∈ ["matched", "missing_companion"] && record.matchedPaths.isEmpty &&
    record.error.isNone

/-- `index_artifact` up to its publication, on what the object store and the processor answer. -/
def indexArtifact (declared : ArtifactIdentity)
    (download : Nat → Except ObjectError (Nat × Checksum))
    (processor : ArtifactType → Except JobError IndexOutput) : Except JobError IndexEnd := do
  refuse (maxIndexedBytes < declared.byteSize) (.deterministic "artifact_size_invalid")
  let (size, checksum) ← (download declared.byteSize).mapError mapArtifactObjectError
  if size ≠ declared.byteSize ∨ checksum ≠ declared.checksum then
    return .failure "artifact_mismatch" false
  else
    match processor declared.artifactType with
    | .error (.deterministic _) => return .failure "artifact_malformed" true
    | .error error => .error error
    | .ok scan =>
      match scan.artifacts with
      | [record] =>
        if scan.schemaVersion = 1 ∧ record.describes declared then return .published
        else return .failure "artifact_mismatch" false
      | _ => return .failure "artifact_malformed" true

/-- The rows after the index job of a session has ended its attempt. -/
def finishIndex (u : Uploads) (t : Session) (job : Job) (objectId imageId : Uuid) :
    Except JobError IndexEnd → Option Uploads
  | .ok .published => (u.publishArtifact t objectId imageId).map Prod.fst
  | .ok (.failure code quarantine) => u.publishArtifactFailure t code quarantine
  | .error (.deterministic code) => u.failArtifact t.projectId t.id code
  | .error (.resource code) =>
    if job.resourceFailures = 0 then some u else u.failArtifact t.projectId t.id code
  | .error (.transient code) =>
    if job.attempt < job.maxAttempt then some u else u.failArtifact t.projectId t.id code
  | .error .lostLease | .error .dependency => some u

/-- What a correct processor reports of a file with this identity. -/
def correctOutput (embedded : ArtifactIdentity) : IndexOutput :=
  ⟨1, [⟨artifactName embedded.artifactType, artifactName embedded.artifactType,
    embedded.artifactType.text, some embedded.architecture, some embedded.byteSize,
    some embedded.debugId, embedded.codeId, "missing_companion", [], none⟩]⟩

/-! ## What the limits let through -/

theorem declaredArtifact_size {release : ReleaseRequest} {artifact : ArtifactRequest}
    {a : DeclaredArtifact} (h : declaredArtifact release artifact = some a) :
    0 < a.identity.byteSize ∧ a.identity.byteSize ≤ maxArtifactBytes := by
  unfold declaredArtifact at h
  simp only [Option.bind_eq_bind, Option.bind_eq_some_iff] at h
  obtain ⟨checksum, -, kind, -, h⟩ := h
  split_ifs at h with hchecks
  cases h
  simp only [Bool.and_eq_true, decide_eq_true_eq, ne_eq] at hchecks
  have hpos : artifact.byteSize ≠ 0 := hchecks.1.1.1.1.1.2
  have hle : artifact.byteSize ≤ maxArtifactBytes := hchecks.1.1.1.1.2
  exact ⟨Nat.pos_of_ne_zero hpos, hle⟩

theorem mem_declaredArtifacts {release : ReleaseRequest} {paths : List String} {total : Nat}
    {requests : List ArtifactRequest} {artifacts : List DeclaredArtifact}
    (h : declaredArtifacts release paths total requests = some artifacts) :
    ∀ a ∈ artifacts, ∃ artifact ∈ requests, declaredArtifact release artifact = some a := by
  induction requests generalizing paths total artifacts with
  | nil =>
    cases h
    exact nofun
  | cons artifact rest ih =>
    unfold declaredArtifacts at h
    simp only [Option.bind_eq_bind, Option.bind_eq_some_iff] at h
    obtain ⟨declared, hdeclared, h⟩ := h
    split_ifs at h
    obtain ⟨declaredRest, hrest, h⟩ := Option.bind_eq_some_iff.mp h
    cases h
    intro a ha
    rcases List.mem_cons.mp ha with rfl | ha
    · exact ⟨artifact, List.mem_cons_self, hdeclared⟩
    · obtain ⟨found, hfound, heq⟩ := ih hrest a ha
      exact ⟨found, List.mem_cons_of_mem _ hfound, heq⟩

/-- The sizes that a negotiation lets through. -/
theorem tryFrom_size {parsesRfc3339 : String → Bool} {request : NegotiateRequest}
    {v : ValidatedNegotiation} (h : ValidatedNegotiation.tryFrom parsesRfc3339 request = some v)
    {a : DeclaredArtifact} (ha : a ∈ v.artifacts) :
    0 < a.identity.byteSize ∧ a.identity.byteSize ≤ maxArtifactBytes := by
  unfold ValidatedNegotiation.tryFrom at h
  dsimp only at h
  split_ifs at h
  obtain ⟨artifacts, hartifacts, h⟩ := Option.bind_eq_some_iff.mp h
  cases h
  have hmem : a ∈ artifacts := (List.mem_insertionSort _).mp ha
  obtain ⟨artifact, -, hdeclared⟩ := mem_declaredArtifacts hartifacts a hmem
  exact declaredArtifact_size hdeclared

theorem plannedParts_isSome {byteSize : Nat} (hpos : 0 < byteSize)
    (hle : byteSize ≤ maxArtifactBytes) : (plannedParts byteSize).isSome := by
  have hcount : ¬ ((byteSize + (partBytes - 1)) / partBytes = 0 ∨
      maxParts < (byteSize + (partBytes - 1)) / partBytes) := by
    unfold maxArtifactBytes at hle
    unfold partBytes maxParts
    omega
  unfold plannedParts
  dsimp only
  rw [if_neg hcount]
  rfl

theorem correctOutput_describes (declared : ArtifactIdentity) :
    ∃ record, (correctOutput declared).artifacts = [record] ∧ record.describes declared := by
  refine ⟨_, rfl, ?_⟩
  simp [IndexRecord.describes, sameIgnoringCase, eqIgnoreAsciiCase]

section
variable {declared : ArtifactIdentity} {download : Nat → Except ObjectError (Nat × Checksum)}
  {processor : ArtifactType → Except JobError IndexOutput}

/-- A file as declared is published when the worker takes its size. -/
theorem indexArtifact_fits
    (hdownload : download declared.byteSize = .ok (declared.byteSize, declared.checksum))
    (hprocessor : processor declared.artifactType = .ok (correctOutput declared))
    (hsize : declared.byteSize ≤ maxIndexedBytes) :
    indexArtifact declared download processor = .ok .published := by
  obtain ⟨record, hrecord, hdescribes⟩ := correctOutput_describes declared
  have hversion : (correctOutput declared).schemaVersion = 1 := rfl
  unfold indexArtifact
  rw [refuse_of_not (Nat.not_lt.mpr hsize), hdownload, hprocessor]
  simp only [ok_bind, Except.mapError, ne_eq, not_true_eq_false, or_self, if_false, hrecord,
    hversion, hdescribes, and_self, if_true, pure_eq_ok]

theorem indexArtifact_exceeds (hsize : maxIndexedBytes < declared.byteSize) :
    indexArtifact declared download processor =
      .error (.deterministic "artifact_size_invalid") := by
  unfold indexArtifact
  rw [refuse_of hsize, error_bind]

end

/-! ## The rows of an upload that is being indexed -/

/-- The manifest row of an upload is available with an image. -/
def AvailableFor (u : Uploads) (t : Session) : Prop :=
  ∃ m, u.manifest t.projectId t.manifestId = some m ∧ m.identity = t.identity ∧
    m.state = .available ∧ m.debugImage.isSome = true

/-- A session and its manifest row wait for the index job, whose inserts draw new identifiers. -/
structure Indexing (s : State) (t : Session) (objectId imageId : Uuid) : Prop where
  mem : t ∈ s.uploads.sessions
  processing : t.state = .processing
  row : ∃ m ∈ s.uploads.manifests, m.id = t.manifestId ∧ m.projectId = t.projectId ∧
    m.state = .processing ∧ m.identity = t.identity
  newObject : ∀ o ∈ s.uploads.objects, o.id ≠ objectId
  newImage : s.uploads.images.find imageId = none

section
variable {u : Uploads} {t : Session} {m : ManifestArtifact}

theorem manifest_setManifest {projectId id : Uuid} (row : ManifestArtifact)
    (hm : u.manifest projectId id = some m) (hid : row.id = m.id)
    (hproject : row.projectId = m.projectId) :
    (u.setManifest row).manifest projectId id = some row := by
  obtain ⟨hmem, hmid, hmproject⟩ := manifest_eq_some hm
  have hrow : row ∈ (u.setManifest row).manifests := (mem_setManifest hmem hid).mpr (.inr rfl)
  have hfound := manifest_of_mem hrow
  rw [hid, hproject, hmid, hmproject] at hfound
  exact hfound

theorem endArtifact_eq (ht : t ∈ u.sessions) (hs : t.state = .processing)
    (hm : u.manifest t.projectId t.manifestId = some m) (hstate : m.state = .processing)
    (hidentity : m.identity = t.identity) (session : SessionState) (state : ManifestState)
    (image : Option Uuid) :
    u.endArtifact t session state image =
      some ((u.setManifest { m with state := state, debugImage := image }).moveSession t.id
        .processing session rfl) := by
  unfold Uploads.endArtifact
  rw [hm, session_of_mem ht, Option.bind_eq_bind, Option.bind_eq_bind, Option.bind_some,
    Option.bind_some, if_pos ⟨hstate, hidentity, hs, rfl⟩]

theorem failArtifact_not_available {u' : Uploads} {code : String}
    (hm : u.manifest t.projectId t.manifestId = some m) (ht : t ∈ u.sessions)
    (h : u.failArtifact t.projectId t.id code = some u') : ¬ AvailableFor u' t := by
  unfold Uploads.failArtifact at h
  rw [session_of_mem ht, Option.bind_eq_bind, Option.bind_some, hm, Option.bind_eq_bind,
    Option.bind_some] at h
  split_ifs at h
  cases h
  rintro ⟨found, hfound, -, hstate, -⟩
  have hmoved : (u.moveSession t.id .processing (.failed code) rfl).manifest t.projectId
      t.manifestId = some m := hm
  have hrow := manifest_setManifest { m with state := .quarantined code, debugImage := none }
    hmoved rfl rfl
  rw [hfound] at hrow
  rw [Option.some.inj hrow] at hstate
  cases hstate

end

section
variable {s : State} {t : Session} {objectId imageId : Uuid}

theorem Indexing.manifest (h : Indexing s t objectId imageId) :
    ∃ m, s.uploads.manifest t.projectId t.manifestId = some m ∧ m.state = .processing ∧
      m.identity = t.identity := by
  obtain ⟨m, hm, hid, hproject, hstate, hidentity⟩ := h.row
  have hfound := manifest_of_mem hm
  rw [hid, hproject] at hfound
  exact ⟨m, hfound, hstate, hidentity⟩

theorem known_of_run (h : Reachable step (fun _ => True) .init s) : s.Known :=
  h.invariant State.Known known_init fun _ _ _ _ hk hs _ => (hk.steps (steps_step hs)).2

/-- A publication of such an upload succeeds and makes its row available. -/
theorem Indexing.publishes (h : Indexing s t objectId imageId) (hk : s.Known) :
    ∃ u key, s.uploads.publishArtifact t objectId imageId = some (u, key) ∧ AvailableFor u t := by
  have hkey : ∀ o ∈ s.uploads.objects, o.objectKey ≠ t.objectKey := by
    intro o ho heq
    obtain ⟨x, hx, hxkey, hcompleted, -⟩ := hk.named o ho
    obtain rfl := IndexedTable.eq_of_key_eq hx h.mem (hxkey.trans heq)
    rw [h.processing] at hcompleted
    cases hcompleted
  obtain ⟨v, o, hv, himages⟩ := upsertObject_isSome hkey h.newObject
  obtain ⟨w, image, hw⟩ : ∃ w image, v.upsertImage t o imageId = some (w, image) :=
    upsertImage_isSome (himages ▸ h.newImage)
  obtain ⟨-, -, hvs, hvm, -⟩ := upsertObject_eq_some hv
  obtain ⟨hws, hwm, -⟩ := upsertImage_eq_some hw
  obtain ⟨m, hm, hstate, hidentity⟩ := h.manifest
  have hmw : w.manifest t.projectId t.manifestId = some m := by
    unfold Uploads.manifest
    rw [hwm, hvm]
    exact hm
  have hmem : t ∈ w.sessions := by
    rw [hws, hvs]
    exact h.mem
  have hend := endArtifact_eq hmem h.processing hmw hstate hidentity .completed .available
    (some image)
  have hrow := manifest_setManifest { m with state := .available, debugImage := some image } hmw
    rfl rfl
  refine ⟨(w.setManifest { m with state := .available, debugImage := some image }).moveSession
    t.id .processing .completed rfl, o.objectKey, ?_, _, hrow, hidentity, rfl, rfl⟩
  unfold Uploads.publishArtifact
  rw [hv, Option.bind_eq_bind, Option.bind_some]
  dsimp only
  rw [hw, Option.bind_eq_bind, Option.bind_some]
  dsimp only
  rw [hend]
  rfl

end

/-! ## Accepted artifacts -/

/-- A selection is not refused for the sake of this artifact. -/
structure Selectable (artifact : SelectedArtifact) : Prop where
  alone : selectedArtifactSizeValid [artifact] = true
  among : ∀ before after, selectedArtifactSizeValid (before ++ after) = true →
    ((before ++ artifact :: after).map SelectedArtifact.byteSize).sum ≤ maxSelectedArtifactBytes →
    selectedArtifactSizeValid (before ++ artifact :: after) = true

theorem selectable_iff {artifact : SelectedArtifact} (hpos : 0 ≤ artifact.byteSize) :
    Selectable artifact ↔ artifact.byteSize ≤ CrashSymbols.maxArtifactBytes := by
  constructor
  · intro h
    have halone := h.alone
    simp only [selectedArtifactSizeValid, List.all_cons, List.all_nil, Bool.and_true,
      Bool.and_eq_true, decide_eq_true_eq] at halone
    exact halone.1.2
  · intro hsize
    constructor
    · simp only [selectedArtifactSizeValid, List.all_cons, List.all_nil, Bool.and_true,
        List.map_cons, List.map_nil, List.sum_cons, List.sum_nil, Bool.and_eq_true,
        decide_eq_true_eq]
      refine ⟨⟨hpos, hsize⟩, ?_⟩
      unfold CrashSymbols.maxArtifactBytes at hsize
      unfold maxSelectedArtifactBytes
      omega
    · intro before after hvalid hsum
      simp only [selectedArtifactSizeValid, List.all_append, Bool.and_eq_true] at hvalid
      simp only [selectedArtifactSizeValid, List.all_append, List.all_cons, Bool.and_eq_true,
        decide_eq_true_eq]
      exact ⟨⟨hvalid.1.1, ⟨hpos, hsize⟩, hvalid.1.2⟩, hsum⟩

/-- What becomes of an accepted artifact: its upload has a plan, its index job makes it available
and its size spoils no selection. -/
structure Usable (s : State) (t : Session) (job : Job) (objectId imageId : Uuid)
    (download : Nat → Except ObjectError (Nat × Checksum))
    (processor : ArtifactType → Except JobError IndexOutput) : Prop where
  planned : (plannedParts t.identity.byteSize).isSome = true
  indexed : ∃ u, finishIndex s.uploads t job objectId imageId
    (indexArtifact t.identity download processor) = some u ∧ AvailableFor u t
  selected : ∀ artifact : SelectedArtifact, artifact.byteSize = t.identity.byteSize →
    Selectable artifact

theorem usable_iff {parsesRfc3339 : String → Bool} {request : NegotiateRequest}
    {v : ValidatedNegotiation} {a : DeclaredArtifact} {s : State} {t : Session}
    {objectId imageId : Uuid} {download : Nat → Except ObjectError (Nat × Checksum)}
    {processor : ArtifactType → Except JobError IndexOutput}
    (hv : ValidatedNegotiation.tryFrom parsesRfc3339 request = some v) (ha : a ∈ v.artifacts)
    (hreach : Reachable step (fun _ => True) .init s) (h : Indexing s t objectId imageId)
    (hdeclared : t.identity = a.identity)
    (hdownload : download t.identity.byteSize = .ok (t.identity.byteSize, t.identity.checksum))
    (hprocessor : processor t.identity.artifactType = .ok (correctOutput t.identity))
    (job : Job) :
    Usable s t job objectId imageId download processor ↔
      a.identity.byteSize ≤ maxIndexedBytes := by
  obtain ⟨hpos, hle⟩ := tryFrom_size hv ha
  rw [← hdeclared] at hpos hle ⊢
  constructor
  · intro husable
    by_contra hsize
    obtain ⟨u, hu, havailable⟩ := husable.indexed
    rw [indexArtifact_exceeds (Nat.lt_of_not_le hsize)] at hu
    obtain ⟨m, hm, -⟩ := h.manifest
    exact failArtifact_not_available hm h.mem hu havailable
  · intro hsize
    refine ⟨plannedParts_isSome hpos hle, ?_, ?_⟩
    · obtain ⟨u, key, hu, havailable⟩ := h.publishes (known_of_run hreach)
      refine ⟨u, ?_, havailable⟩
      rw [indexArtifact_fits hdownload hprocessor hsize]
      unfold finishIndex
      rw [hu, Option.map_some]
    · intro artifact hartifact
      refine (selectable_iff ?_).mpr ?_
      · rw [hartifact]
        exact Int.natCast_nonneg _
      · rw [hartifact]
        unfold maxIndexedBytes at hsize
        unfold CrashSymbols.maxArtifactBytes
        omega

/-! ## An artifact between the limits -/

section sample

def sampleDigest : String := "0707070707070707070707070707070707070707070707070707070707070707"

def sampleArtifact (byteSize : Nat) : DeclaredArtifact :=
  ⟨"game.pdb", ⟨List.replicate 32 7, byteSize, .pdb, "game.pdb", "x86_64", "DEBUG-A", none⟩⟩

def sampleRequest (byteSize : Nat) : NegotiateRequest :=
  ⟨⟨"1.0", "windows", "x86_64", "Shipping", none, none, none⟩,
    [⟨"game.pdb", "game.pdb", "pdb", "x86_64", byteSize, sampleDigest, "DEBUG-A", none⟩],
    "1.0", none⟩

/-- Negotiation and completion of one upload. -/
def sampleUpload (byteSize : Nat) : List Action :=
  let a := sampleArtifact byteSize
  [.startNegotiation 1 ⟨1, 1, a.path, a.identity⟩, .negotiate 1 11 none] ++
    List.replicate 6 (.negotiate 1 0 none) ++ [.negotiate 1 21 none, .startCompletion 1 1 21] ++
    List.replicate 5 (.complete 1 a.identity.checksum byteSize)

def sampleSession (byteSize : Nat) : Session :=
  ⟨21, 1, 11, (sampleArtifact byteSize).identity, .processing, sessionSeconds⟩

def storedObject (byteSize : Nat) : Nat → Except ObjectError (Nat × Checksum) :=
  fun _ => .ok (byteSize, List.replicate 32 7)

def sampleProcessor (byteSize : Nat) : ArtifactType → Except JobError IndexOutput :=
  fun _ => .ok (correctOutput (sampleArtifact byteSize).identity)

/-- The upload waits for its index job. -/
def Waits (s : State) (byteSize : Nat) : Prop :=
  sampleSession byteSize ∈ s.uploads.sessions.table.rows ∧
    (∃ m ∈ s.uploads.manifests.rows, m.id = 11 ∧ m.projectId = 1 ∧ m.state = .processing ∧
      m.identity = (sampleArtifact byteSize).identity) ∧
    (∀ o ∈ s.uploads.objects.rows, o.id ≠ 41) ∧ s.uploads.images.find 51 = none

instance (s : State) (byteSize : Nat) : Decidable (Waits s byteSize) :=
  inferInstanceAs (Decidable (_ ∧ _ ∧ _ ∧ _))

theorem indexing_of_waits {s : State} {byteSize : Nat} (h : Waits s byteSize) :
    Indexing s (sampleSession byteSize) 41 51 := ⟨h.1, rfl, h.2.1, h.2.2.1, h.2.2.2⟩

/-- One byte more than the worker takes. -/
theorem not_usable_of_large : ¬ ∀ (parsesRfc3339 : String → Bool) (request : NegotiateRequest)
    (v : ValidatedNegotiation), ValidatedNegotiation.tryFrom parsesRfc3339 request = some v →
    ∀ a ∈ v.artifacts, ∀ s, Reachable step (fun _ => True) .init s →
    ∀ t objectId imageId, Indexing s t objectId imageId → t.identity = a.identity →
    ∀ (download : Nat → Except ObjectError (Nat × Checksum))
      (processor : ArtifactType → Except JobError IndexOutput),
      download t.identity.byteSize = .ok (t.identity.byteSize, t.identity.checksum) →
      processor t.identity.artifactType = .ok (correctOutput t.identity) →
      ∀ job, Usable s t job objectId imageId download processor := by
  intro h
  have hrun : (run step (fun _ => True) .init (sampleUpload (2 ^ 30 + 1))).isSome := by
    decide +kernel
  obtain ⟨s, hs⟩ := Option.isSome_iff_exists.mp hrun
  have hwaits : ∀ u ∈ run step (fun _ => True) .init (sampleUpload (2 ^ 30 + 1)),
      Waits u (2 ^ 30 + 1) := by
    decide +kernel
  have hindexing := indexing_of_waits (hwaits s hs)
  have haccepted : ((ValidatedNegotiation.tryFrom (fun _ => true)
      (sampleRequest (2 ^ 30 + 1))).map ValidatedNegotiation.artifacts) =
        some [sampleArtifact (2 ^ 30 + 1)] := by
    decide +kernel
  obtain ⟨v, hv, hartifacts⟩ := Option.map_eq_some_iff.mp haccepted
  have husable := h _ _ v hv (sampleArtifact (2 ^ 30 + 1))
    (by rw [hartifacts]; exact List.mem_singleton_self _) s (Reachable.of_run (.init trivial) hs)
    _ _ _ hindexing rfl (storedObject (2 ^ 30 + 1)) (sampleProcessor (2 ^ 30 + 1)) rfl rfl
    (.new 0 0)
  obtain ⟨u, hu, havailable⟩ := husable.indexed
  rw [indexArtifact_exceeds (by decide)] at hu
  obtain ⟨m, hm, -⟩ := hindexing.manifest
  exact failArtifact_not_available hm hindexing.mem hu havailable

theorem usable_of_small : ∃ s, Reachable step (fun _ => True) .init s ∧
    Usable s (sampleSession 10) (.new 0 0) 41 51 (storedObject 10) (sampleProcessor 10) := by
  have hrun : (run step (fun _ => True) .init (sampleUpload 10)).isSome := by decide +kernel
  obtain ⟨s, hs⟩ := Option.isSome_iff_exists.mp hrun
  have hwaits : ∀ u ∈ run step (fun _ => True) .init (sampleUpload 10), Waits u 10 := by
    decide +kernel
  have haccepted : ((ValidatedNegotiation.tryFrom (fun _ => true) (sampleRequest 10)).map
      ValidatedNegotiation.artifacts) = some [sampleArtifact 10] := by
    decide +kernel
  obtain ⟨v, hv, hartifacts⟩ := Option.map_eq_some_iff.mp haccepted
  have hreach := Reachable.of_run (.init trivial) hs
  have hmem : sampleArtifact 10 ∈ v.artifacts := by
    rw [hartifacts]
    exact List.mem_singleton_self _
  exact ⟨s, hreach, (usable_iff hv hmem hreach (indexing_of_waits (hwaits s hs)) rfl rfl rfl
    (.new 0 0)).mpr (by decide)⟩

end sample
end FaultLane.ArtifactLimits
