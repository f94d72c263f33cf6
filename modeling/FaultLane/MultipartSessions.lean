import FaultLane.MultipartTransfer

set_option autoImplicit false

/-!
# Sessions and their parts

The parts of a session as the service expects them are those that the tool sends, and the
rows that they leave pass the check before the upload is completed.
-/
namespace FaultLane.MultipartUpload
open Fallible FaultLane.Machine RustText SymbolUpload Tilings

/-! ## A new session -/

structure FitsArtifact (session : PartSession) (byteSize : UInt64) : Prop where
  size : session.byteSize.toInt = byteSize.toNat
  partSize : session.partSize.toInt = partBytes
  partCount : session.partCount.toInt = divCeil byteSize.toNat partBytes
  first : 1 ≤ session.partCount.toInt
  last : session.partCount.toInt ≤ 10000

theorem createSession_eq_ok {byteSize : UInt64} {session : PartSession}
    (h : createSession byteSize = .ok session) :
    FitsArtifact session byteSize ∧ session.state = .active ∧ session.expired = false := by
  unfold createSession at h
  dsimp only at h
  obtain ⟨_, _, h⟩ := bind_eq_ok.mp h
  obtain ⟨size, hsize, h⟩ := bind_eq_ok.mp h
  obtain ⟨partSize, hpart, h⟩ := bind_eq_ok.mp h
  obtain ⟨count, hcount, h⟩ := bind_eq_ok.mp h
  obtain ⟨_, hcheck, h⟩ := bind_eq_ok.mp h
  obtain ⟨-, -, hfirst, hlast⟩ := not_not.mp (refuse_eq_ok.mp hcheck)
  cases h
  exact ⟨⟨toI64_eq_some.mp (okOr_eq_ok.mp hsize), toI32_eq_some.mp (okOr_eq_ok.mp hpart),
    toI32_eq_some.mp (okOr_eq_ok.mp hcount), hfirst, hlast⟩, rfl, rfl⟩

/-- Every size whose number of parts is allowed gets a session. -/
theorem exists_createSession (byteSize : UInt64)
    (hfirst : 1 ≤ divCeil byteSize.toNat partBytes)
    (hlast : divCeil byteSize.toNat partBytes ≤ maxParts) :
    ∃ session, createSession byteSize = .ok session := by
  have hbytes : partBytes = 8388608 := rfl
  have hmax : maxParts = 10000 := rfl
  have hsize : byteSize.toNat ≤ maxParts * partBytes :=
    (divCeil_mul_ge byteSize.toNat partBytes (by decide)).trans (Nat.mul_le_mul_right _ hlast)
  have hpositive : 0 < byteSize.toNat := by
    have := mul_lt_of_lt_divCeil (i := 0) hfirst
    omega
  rw [hmax, hbytes] at hsize
  obtain ⟨size, hsome, hvalue⟩ :=
    exists_toI64 (x := (byteSize.toNat : Int)) (by omega) (by omega)
  obtain ⟨partSize, hpart, hpartValue⟩ :=
    exists_toI32 (x := (partBytes : Int)) (by omega) (by omega)
  obtain ⟨count, hcount, hcountValue⟩ :=
    exists_toI32 (x := (divCeil byteSize.toNat partBytes : Nat)) (by omega) (by omega)
  refine ⟨⟨size, partSize, count, .active, false⟩, ?_⟩
  unfold createSession
  dsimp only
  rw [refuse_of_not (by omega), ok_bind, hsome, okOr_some, ok_bind, hpart, okOr_some, ok_bind,
    hcount, okOr_some, ok_bind, refuse_of_not (by omega), ok_bind]

section
variable {byteSize : UInt64} {session : PartSession}

/-- The size of a part, as the tool computes it. -/
theorem FitsArtifact.expectedPartSize (h : FitsArtifact session byteSize) {number : Int32}
    {n : Nat} (hnumber : number.toInt = n) (hfirst : 1 ≤ n)
    (hlast : n ≤ divCeil byteSize.toNat partBytes) :
    expectedPartSize session number =
      .ok (min (byteSize.toNat - (n - 1) * partBytes) partBytes : Nat) := by
  obtain ⟨hbyte, hpart, hcount, -, hmax⟩ := h
  unfold MultipartUpload.expectedPartSize
  rw [if_neg (by omega)]
  by_cases hmiddle : n < divCeil byteSize.toNat partBytes
  · rw [if_pos (by omega), hpart, min_of_lt_divCeil hfirst hmiddle]
  · have hn : n = divCeil byteSize.toNat partBytes := by omega
    have hoffset : (n - 1) * partBytes < byteSize.toNat := mul_lt_of_lt_divCeil (by omega)
    have hlarge : (n - 1) * partBytes < 2 ^ 63 := by
      calc
        (n - 1) * partBytes ≤ 10000 * partBytes := Nat.mul_le_mul_right _ (by omega)
        _ < 2 ^ 63 := by decide
    have hpreceding : session.partSize.toInt * (session.partCount.toInt - 1) =
        (((n - 1) * partBytes : Nat) : Int) := by
      have hprevious : session.partCount.toInt - 1 = ((n - 1 : Nat) : Int) := by omega
      rw [hpart, hprevious, Int.mul_comm, Int.natCast_mul]
    have hbytes := Int64.toInt_lt session.byteSize
    have hdiff : session.byteSize.toInt - (((n - 1) * partBytes : Nat) : Int) =
        ((byteSize.toNat - (n - 1) * partBytes : Nat) : Int) := by omega
    have hmul : checkedMulI64 session.partSize.toInt (session.partCount.toInt - 1) =
        some (((n - 1) * partBytes : Nat) : Int) := by
      unfold checkedMulI64
      rw [hpreceding, if_pos (signed_iff.mpr ⟨by omega, by omega⟩)]
    have hsub : checkedSubI64 session.byteSize.toInt (((n - 1) * partBytes : Nat) : Int) =
        some ((byteSize.toNat - (n - 1) * partBytes : Nat) : Int) := by
      unfold checkedSubI64
      rw [hdiff, if_pos (signed_iff.mpr ⟨by omega, by omega⟩)]
    rw [if_neg (by omega), hmul, okOr_some, ok_bind, hsub, Option.filter_some,
      if_pos (decide_eq_true (by omega)), okOr_some,
      min_of_eq_divCeil (by decide) hfirst hn]

theorem expectedPartSize_range {number : Int32} {size : Int}
    (h : expectedPartSize session number = .ok size) :
    1 ≤ number.toInt ∧ number.toInt ≤ session.partCount.toInt := by
  unfold MultipartUpload.expectedPartSize at h
  by_cases hrange : number.toInt < 1 ∨ session.partCount.toInt < number.toInt
  · rw [if_pos hrange] at h
    cases h
  · omega

end

/-! ## Recorded parts -/

section
variable {τ : Type} (digests : Digests) (store : ObjectStore τ) (session : PartSession)

structure ValidRow (key : Int) (row : PartRow) : Prop where
  number : row.partNumber.toInt = key
  size : expectedPartSize session row.partNumber = .ok row.byteSize.toInt
  contentMd5 : digests.decodesTo16 row.contentMd5 = true

structure ValidRows (rows : PartRows) : Prop where
  sorted : rows.keys.Pairwise (· < ·)
  valid : ∀ key row, (key, row) ∈ rows → ValidRow digests session key row

/-- The rows that recorded parts can leave, with any objects in the store. -/
inductive Recorded : PartRows → Prop
  | none : Recorded []
  | record {rows rows' : PartRows} (stored : τ) (partNumber : Int32) (request : RecordPartRequest)
      (h : Recorded rows)
      (hrecord : recordUploadPart digests store session stored partNumber request rows =
        .ok rows') : Recorded rows'

end

section
variable {τ : Type} {digests : Digests} {store : ObjectStore τ} {session : PartSession}

theorem ValidRows.insert {rows : PartRows} (h : ValidRows digests session rows) {key : Int}
    {row : PartRow} (hrow : ValidRow digests session key row) :
    ValidRows digests session (SortedMap.insert key row rows) := by
  refine ⟨SortedMap.pairwise_insert (fun _ _ _ => Int.lt_trans) (by omega) key row h.sorted, ?_⟩
  intro k r hmem
  rcases SortedMap.mem_insert hmem with heq | hmem
  · cases heq
    exact hrow
  · exact h.valid k r hmem

theorem recordUploadPart_eq_ok {stored : τ} {partNumber : Int32} {request : RecordPartRequest}
    {rows rows' : PartRows}
    (h : recordUploadPart digests store session stored partNumber request rows = .ok rows') :
    ∃ row, ValidRow digests session partNumber.toInt row ∧
      rows' = SortedMap.insert partNumber.toInt row rows := by
  unfold recordUploadPart at h
  obtain ⟨_, -, h⟩ := bind_eq_ok.mp h
  obtain ⟨_, -, h⟩ := bind_eq_ok.mp h
  obtain ⟨expected, hexpected, h⟩ := bind_eq_ok.mp h
  obtain ⟨_, hrequest, h⟩ := bind_eq_ok.mp h
  obtain ⟨_, -, h⟩ := bind_eq_ok.mp h
  obtain ⟨provider, -, h⟩ := bind_eq_ok.mp h
  obtain ⟨_, -, h⟩ := bind_eq_ok.mp h
  obtain ⟨byteSize, hsize, h⟩ := bind_eq_ok.mp h
  obtain ⟨_, -, h⟩ := bind_eq_ok.mp h
  cases h
  have hcheck := refuse_eq_ok.mp hrequest
  rw [not_or, not_or, not_not, not_not] at hcheck
  obtain ⟨hbytes, hmd5, -⟩ := hcheck
  unfold validContentMd5 at hmd5
  rw [Bool.and_eq_true] at hmd5
  rw [okOr_eq_ok, toI32_eq_some] at hsize
  refine ⟨_, ⟨rfl, ?_, hmd5.2⟩, rfl⟩
  rw [hexpected, hsize, hbytes]

theorem Recorded.validRows {rows : PartRows} (h : Recorded digests store session rows) :
    ValidRows digests session rows := by
  induction h with
  | none => exact ⟨List.Pairwise.nil, nofun⟩
  | record stored partNumber request _ hrecord ih =>
    obtain ⟨row, hrow, rfl⟩ := recordUploadPart_eq_ok hrecord
    exact ih.insert hrow

/-! ## The view of a session -/

/-- A view that says what the session says. -/
structure ViewOf (session : PartSession) (rows : PartRows) (view : Cli.UploadView) : Prop where
  partSize : (view.partSize.toNat : Int) = session.partSize.toInt
  partCount : (view.partCount.toNat : Int) = session.partCount.toInt
  completed : view.completedParts = loadCompletedParts rows

theorem exists_uploadView {byteSize : UInt64} (h : FitsArtifact session byteSize) (id : Text)
    (rows : PartRows) : ∃ view, uploadView session id rows = .ok view ∧
      ViewOf session rows view := by
  have hsize := h.partSize
  have hbytes : partBytes < 2 ^ 31 := by decide
  have hfirst := h.first
  have hlast := h.last
  have hsize64 : session.partSize.toInt.toNat < UInt64.size := by
    unfold UInt64.size
    omega
  have hcount32 : session.partCount.toInt.toNat < UInt32.size := by
    unfold UInt32.size
    omega
  refine ⟨⟨id, UInt64.ofNat session.partSize.toInt.toNat,
    UInt32.ofNat session.partCount.toInt.toNat, loadCompletedParts rows⟩, ?_, ?_, ?_, rfl⟩
  · unfold uploadView
    rw [toU64_of_nonneg (by omega) (by omega), okOr_some, ok_bind,
      toU32_of_nonneg (by omega) (by omega), okOr_some, ok_bind]
  · rw [UInt64.toNat_ofNat_of_lt' hsize64]
    omega
  · rw [UInt32.toNat_ofNat_of_lt' hcount32]
    omega

section
variable {artifact : Cli.LocalArtifact} {view : Cli.UploadView} {rows : PartRows}

theorem ViewOf.validPlan (h : ViewOf session rows view)
    (hfits : FitsArtifact session artifact.byteSize) : Cli.validPlan artifact view = true := by
  have hsize : view.partSize.toNat = partBytes := by
    have := h.partSize
    have := hfits.partSize
    omega
  have hcount : view.partCount.toNat = divCeil artifact.byteSize.toNat partBytes := by
    have := h.partCount
    have := hfits.partCount
    omega
  have hfirst := hfits.first
  have hlast := hfits.last
  have hview := h.partCount
  rw [Cli.validPlan_iff, hsize]
  refine ⟨by decide, by decide, by omega, ?_, hcount⟩
  change view.partCount.toNat ≤ 10000
  omega

/-- The size that the tool gives a part is the one that the service expects. -/
theorem ViewOf.expectedPartSize (h : ViewOf session rows view)
    (hfits : FitsArtifact session artifact.byteSize) {number : Int32} {n : Nat}
    (hnumber : number.toInt = n) (hfirst : 1 ≤ n) (hlast : n ≤ view.partCount.toNat) :
    expectedPartSize session number =
      .ok ((Cli.partAt artifact view n).byteSize : Int) := by
  have hsize : view.partSize.toNat = partBytes := by
    have := h.partSize
    have := hfits.partSize
    omega
  have hcount := h.partCount
  have hfit := hfits.partCount
  rw [hfits.expectedPartSize hnumber hfirst (by omega)]
  unfold Cli.partAt
  rw [hsize]

theorem ViewOf.validPart (h : ViewOf session rows view)
    (hfits : FitsArtifact session artifact.byteSize) {key : Int} {row : PartRow}
    (hrow : ValidRow digests session key row) :
    Cli.ValidPart digests artifact view ⟨row.partNumber, row.byteSize, row.contentMd5⟩ := by
  have hsize := hrow.size
  obtain ⟨hfirst, hlast⟩ := expectedPartSize_range hsize
  have hcount := h.partCount
  have hindex : row.partNumber.toInt = (row.partNumber.toInt.toNat : Nat) := by omega
  rw [h.expectedPartSize hfits hindex (by omega) (by omega), Except.ok.injEq] at hsize
  refine ⟨hfirst, by dsimp only; omega, ?_, hrow.contentMd5⟩
  have hprevious : (row.partNumber.toInt - 1).toNat = row.partNumber.toInt.toNat - 1 := by omega
  unfold Cli.CompletedPartView.index
  dsimp only
  rw [hprevious, ← hsize]
  rfl

theorem ViewOf.acceptedParts (h : ViewOf session rows view)
    (hfits : FitsArtifact session artifact.byteSize) (hrows : ValidRows digests session rows) :
    Cli.AcceptedParts digests artifact view [] view.completedParts := by
  refine ⟨?_, ?_, fun _ _ => List.not_mem_nil⟩
  · intro part hpart
    rw [h.completed] at hpart
    obtain ⟨row, hrow, rfl⟩ := List.mem_map.mp hpart
    obtain ⟨⟨key, row'⟩, hentry, rfl⟩ := List.mem_map.mp hrow
    exact h.validPart hfits (hrows.valid key row' hentry)
  · have hkeys : (view.completedParts.map (·.partNumber)).map Int32.toInt = rows.keys := by
      rw [h.completed]
      unfold loadCompletedParts SortedMap.values SortedMap.keys
      rw [List.map_map, List.map_map, List.map_map]
      exact List.map_congr_left fun entry hentry => (hrows.valid entry.1 entry.2 hentry).number
    refine List.Nodup.of_map Int32.toInt ?_
    rw [hkeys]
    exact hrows.sorted.imp fun hlt => Int.ne_of_lt hlt

/-- No stray part is come to in the view of a session. -/
theorem ViewOf.noStrayPart (h : ViewOf session rows view)
    (hfits : FitsArtifact session artifact.byteSize) (hrows : ValidRows digests session rows) :
    Cli.NoStrayPart digests artifact view := by
  intro hplan front part rest hparts _ hstray
  have hmem : part ∈ view.completedParts := by
    rw [hparts]
    exact List.mem_append_right _ List.mem_cons_self
  obtain ⟨hfirst, hlast, -, -⟩ := (h.acceptedParts hfits hrows).1 part hmem
  have hoffset := Cli.index_lt hplan hfirst hlast
  rcases hstray with hstray | hstray
  · omega
  · omega

end
end
end FaultLane.MultipartUpload
