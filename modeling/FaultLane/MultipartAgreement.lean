import FaultLane.MultipartCompletion

set_option autoImplicit false

/-!
# The two sides of a multipart upload agree

Any view that the service may send is refused before anything is sent, or completed to a
tiling of the artifact. On the views of sessions the parts have the sizes that the service
expects, it accepts each of them, and the full set passes its last check. The arithmetic of
the check of a view overflows on a stray part.
-/
namespace FaultLane.MultipartUpload
open Fallible FaultLane.Machine RustText SymbolUpload Tilings

section
variable {digests : Digests} {session : PartSession} {artifact : Cli.LocalArtifact}
  {view : Cli.UploadView} {rows : PartRows}

theorem uploadArtifact_expected {σ : Type} (hfits : FitsArtifact session artifact.byteSize)
    (hview : ViewOf session rows view) (hrows : ValidRows digests session rows)
    (host : Cli.LocalHost) (api : Cli.Api σ) (service : σ) :
    ∀ request ∈ (Cli.uploadArtifact digests host api artifact view service).value.2.requests,
      ∃ number : Int32, number.toInt = request.part.number ∧
        expectedPartSize session number = .ok (request.part.byteSize : Int) := by
  intro request hrequest
  have hplan := hview.validPlan hfits
  have hplanned := (Cli.uploadArtifact_follows api service hplan
    (hview.acceptedParts hfits hrows)).planned request hrequest
  obtain ⟨n, hn, hpart⟩ := List.mem_map.mp hplanned
  obtain ⟨hfirst, hlast⟩ := Cli.range_numbers view n (List.mem_of_mem_filter hn)
  obtain ⟨number, -, hnumber⟩ := Cli.exists_number hplan hlast
  refine ⟨number, ?_, ?_⟩
  · rw [hnumber, ← hpart]
    rfl
  · rw [hview.expectedPartSize hfits hnumber hfirst hlast, hpart]

theorem uploadArtifact_session {τ : Type} {store : ObjectStore τ} {host : Cli.LocalHost}
    (hlawful : digests.Lawful) (hfaithful : store.Faithful digests) (hreads : host.Reads)
    (h : Negotiated session artifact view rows) (hrows : ValidRows digests session rows)
    (stored : τ) :
    ∃ total service requests parts,
      (Cli.uploadArtifact digests host (sessionApi digests store session) artifact view
        ⟨rows, stored⟩).value = (.ok total, ⟨service, requests⟩) ∧
      loadProviderParts session service.rows = .ok parts := by
  have hplan := h.view.validPlan h.fits
  have hlimit : view.partCount.toNat ≤ 10000 := by
    have := h.view.partCount
    have := h.fits.last
    omega
  have hbound : 0 + (List.range' 1 view.partCount.toNat).length * partBytes < 2 ^ 64 := by
    rw [Nat.zero_add, List.length_range']
    calc
      view.partCount.toNat * partBytes ≤ 10000 * partBytes := Nat.mul_le_mul_right _ hlimit
      _ < 2 ^ 64 := by decide
  obtain ⟨total, rows', stored', requests, hrun, hvalid, hkeys, hall⟩ :=
    sendParts_session hlawful hfaithful hreads h (Cli.completedNumbers view)
      (List.range' 1 view.partCount.toNat) (Cli.range_numbers view) hrows 0 hbound stored []
  refine ⟨total, ⟨rows', stored'⟩, requests, _, ?_,
    loadProviderParts_eq_ok h.fits hvalid fun n hfirst hlast => ?_⟩
  · rw [Cli.uploadArtifact_value_of_accepted _ hplan (h.view.acceptedParts h.fits hrows)
      hreads.opens]
    exact hrun
  · have hcount := h.view.partCount
    by_cases hmem : (n : Int) ∈ (Cli.completedNumbers view).map Int32.toInt
    · obtain ⟨number, hnumber, hvalue⟩ := List.mem_map.mp hmem
      obtain ⟨part, hpart, rfl⟩ := List.mem_map.mp ((Cli.mem_completedNumbers number).mp hnumber)
      rw [h.view.completed] at hpart
      obtain ⟨row, hrow, rfl⟩ := List.mem_map.mp hpart
      obtain ⟨⟨key, row'⟩, hentry, rfl⟩ := List.mem_map.mp hrow
      have hkey : key = (n : Int) := by rw [← (hrows.valid key row' hentry).number, ← hvalue]
      exact hkeys _ (hkey ▸ List.mem_map.mpr ⟨_, hentry, rfl⟩)
    · exact hall n (List.mem_range'_1.mpr ⟨hfirst, by omega⟩) hmem

end

/-- The tool's arithmetic is in range, and the view refused or completed, exactly when the
check comes to no stray part. It comes to none on a session, whose parts all agree. -/
theorem uploadArtifact_agrees (digests : Digests) :
    (∀ {σ : Type} (host : Cli.LocalHost) (api : Cli.Api σ) (artifact : Cli.LocalArtifact)
      (upload : Cli.UploadView) (service : σ),
      ((Cli.uploadArtifact digests host api artifact upload service).overflowed = false ∧
        (Cli.Rejects service
            (Cli.uploadArtifact digests host api artifact upload service).value ∨
          Cli.SendsTheRest host artifact upload
            (Cli.uploadArtifact digests host api artifact upload service).value)) ↔
        Cli.NoStrayPart digests artifact upload) ∧
    ∀ {τ : Type} (store : ObjectStore τ) (artifact : Cli.LocalArtifact) (session : PartSession)
      (rows : PartRows) (id : Text), createSession artifact.byteSize = .ok session →
      Recorded digests store session rows →
      ∃ view, uploadView session id rows = .ok view ∧
        Cli.NoStrayPart digests artifact view ∧
        (∀ {σ : Type} (host : Cli.LocalHost) (api : Cli.Api σ) (service : σ), ∀ request ∈
          (Cli.uploadArtifact digests host api artifact view service).value.2.requests,
            ∃ number : Int32, number.toInt = request.part.number ∧
              expectedPartSize session number = .ok (request.part.byteSize : Int)) ∧
        (digests.Lawful → store.Faithful digests → ∀ host : Cli.LocalHost, host.Reads →
          ∀ stored, ∃ total service requests parts,
            (Cli.uploadArtifact digests host (sessionApi digests store session) artifact view
              ⟨rows, stored⟩).value = (.ok total, ⟨service, requests⟩) ∧
            loadProviderParts session service.rows = .ok parts) := by
  constructor
  · intro σ host api artifact upload service
    rw [← Cli.uploadArtifact_overflowed digests host api artifact upload service]
    exact ⟨fun h => h.1, fun h =>
      ⟨h, Cli.uploadArtifact_value digests host api artifact upload service⟩⟩
  · intro τ store artifact session rows id hsession hrecorded
    obtain ⟨hfits, hactive, hlive⟩ := createSession_eq_ok hsession
    obtain ⟨view, hview, hviewOf⟩ := exists_uploadView hfits id rows
    have hrows := hrecorded.validRows
    exact ⟨view, hview, hviewOf.noStrayPart hfits hrows,
      fun host api service => uploadArtifact_expected hfits hviewOf hrows host api service,
      fun hlawful hfaithful host hreads stored =>
        uploadArtifact_session hlawful hfaithful hreads ⟨hactive, hlive, hfits, hviewOf⟩ hrows
          stored⟩

/-! ## On a file of three zero bytes -/

def emptyMd5 : List UInt8 :=
  [212, 29, 140, 217, 143, 0, 178, 4, 233, 128, 9, 152, 236, 248, 66, 126]

def zerosMd5 : List UInt8 :=
  [105, 62, 154, 248, 77, 61, 252, 199, 30, 100, 14, 0, 91, 220, 94, 46]

/-- The digests of the file, and of no bytes for everything else. -/
def zerosDigests : Digests where
  md5 bytes := if bytes = [0, 0, 0] then zerosMd5 else emptyMd5
  encode digest :=
    if digest = zerosMd5 then "aT6a+E09/MceZA4AW9xeLg==".toList
    else "1B2M2Y8AsgTpgAmY7PhCfg==".toList
  decode text :=
    if text = "aT6a+E09/MceZA4AW9xeLg==".toList then some zerosMd5
    else if text = "1B2M2Y8AsgTpgAmY7PhCfg==".toList then some emptyMd5
    else none

theorem zerosDigests_lawful : zerosDigests.Lawful := by
  have hmd5 : ∀ bytes, zerosDigests.md5 bytes = zerosMd5 ∨ zerosDigests.md5 bytes = emptyMd5 := by
    intro bytes
    change (if _ then _ else _) = _ ∨ (if _ then _ else _) = _
    split_ifs
    · exact Or.inl rfl
    · exact Or.inr rfl
  refine ⟨fun bytes => ?_, fun bytes => ?_, fun bytes => ?_⟩
  · rcases hmd5 bytes with h | h <;> rw [h] <;> rfl
  · rcases hmd5 bytes with h | h <;> rw [h] <;> decide
  · rcases hmd5 bytes with h | h <;> rw [h] <;> decide

/-- A store whose signed URL is the number of the part, in unary. -/
def listStore (digests : Digests) : ObjectStore (List (Int × List UInt8)) where
  signPart number _ _ :=
    some (List.replicate number.toInt.toNat '+' ++ List.replicate (-number.toInt).toNat '-', [])
  put signed bytes stored :=
    (.ok (quotedMd5 digests bytes),
      ((signed.url.count '+' : Int) - signed.url.count '-', bytes) :: stored)
  providerPart number stored :=
    some ((stored.find? fun entry => entry.1 = number.toInt).map fun entry =>
      ⟨number, quotedMd5 digests entry.2, entry.2.length⟩)

theorem listStore_faithful (digests : Digests) : (listStore digests).Faithful digests := by
  refine ⟨fun _ _ _ => rfl, fun number byteSize signed bytes stored hsigned _ => ⟨rfl, ?_⟩⟩
  cases hsigned
  have hplus : (List.replicate number.toInt.toNat '+' ++
      List.replicate (-number.toInt).toNat '-').count '+' = number.toInt.toNat := by
    rw [List.count_append, List.count_replicate_self, List.count_replicate]
    rfl
  have hminus : (List.replicate number.toInt.toNat '+' ++
      List.replicate (-number.toInt).toNat '-').count '-' = (-number.toInt).toNat := by
    rw [List.count_append, List.count_replicate_self, List.count_replicate]
    exact Nat.zero_add _
  have hnumber : (number.toInt.toNat : Int) - (-number.toInt).toNat = number.toInt := by omega
  change some (Option.map _ (List.find? _ (_ :: stored))) = _
  rw [List.find?_cons_of_pos]
  · rfl
  · rw [hplus, hminus, hnumber]
    exact decide_eq_true rfl

def zerosHost : Cli.LocalHost where
  opens := true
  reserves _ := true
  readExact _ capacity := some ⟨List.replicate capacity 0, List.length_replicate⟩

theorem uploadArtifact_agrees_zeros : ∃ session view,
    createSession 3 = .ok session ∧ uploadView session ['u'] [] = .ok view ∧
      ∃ total service requests parts,
        (Cli.uploadArtifact zerosDigests zerosHost
          (sessionApi zerosDigests (listStore zerosDigests) session) ⟨"zeros.pdb", 3⟩ view
          ⟨[], []⟩).value = (.ok total, ⟨service, requests⟩) ∧
        loadProviderParts session service.rows = .ok parts := by
  obtain ⟨session, hsession⟩ := exists_createSession 3 (by decide) (by decide)
  obtain ⟨view, hview, -, -, hrun⟩ := (uploadArtifact_agrees zerosDigests).2
    (listStore zerosDigests) ⟨"zeros.pdb", 3⟩ session [] ['u'] hsession .none
  exact ⟨session, view, hsession, hview, hrun zerosDigests_lawful
    (listStore_faithful zerosDigests) zerosHost ⟨rfl, fun _ => rfl, fun _ _ => rfl⟩ []⟩

/-- No answer comes from this service. -/
def silentApi : Cli.Api Unit where
  signPart _ _ s := (.error .retryable, s)
  uploadPart _ _ s := (.error .retryable, s)
  recordPart _ _ _ s := (.error .retryable, s)

/-- A listed part number three of a file of one byte in one part. -/
theorem uploadArtifact_stray_part :
    ¬ ((Cli.uploadArtifact zerosDigests zerosHost silentApi ⟨"a.pdb", 1⟩
          ⟨['u'], 1, 1, [⟨3, 1, []⟩]⟩ ()).overflowed = false ∧
        (Cli.Rejects ()
            (Cli.uploadArtifact zerosDigests zerosHost silentApi ⟨"a.pdb", 1⟩
              ⟨['u'], 1, 1, [⟨3, 1, []⟩]⟩ ()).value ∨
          Cli.SendsTheRest zerosHost ⟨"a.pdb", 1⟩ ⟨['u'], 1, 1, [⟨3, 1, []⟩]⟩
            (Cli.uploadArtifact zerosDigests zerosHost silentApi ⟨"a.pdb", 1⟩
              ⟨['u'], 1, 1, [⟨3, 1, []⟩]⟩ ()).value)) := by
  intro h
  exact absurd h.1 (by decide +kernel)

end FaultLane.MultipartUpload
