import FaultLane.IssueList
import FaultLane.JsonSizes

set_option autoImplicit false

/-!
# Cursors of the issue list

What the size of a cursor is, that it is read back, and for which project and filters.
-/
namespace FaultLane.IssueList
open Fallible RustText RowTexts JsonTexts FixedNumerals
open Grouping (lowerHex)
open GroupingDigest (lowerHex_injective)

/-- What `list_issues` relies on of the other programs. -/
structure Services.Lawful (s : Services) : Prop where
  digest_length : ∀ bytes, (s.sha256 bytes).length = 32
  decode_encode : ∀ bytes, s.decode (s.encode bytes) = some bytes
  encode_size : ∀ bytes, byteLength (s.encode bytes) = (bytes.length * 4 + 2) / 3
  fromSlice_toVec : ∀ c : IssueCursor, c.version = 1 → s.fromSlice c.toVec = some c
  parse_toChar : ∀ t : Timestamp, t.year < 10 ^ 4 → (s.parse (toChar t)).isSome
  timestamptz_toChar : ∀ t : Timestamp, t.year < 10 ^ 4 → s.timestamptz (toChar t) = some t

/-! ## Filters -/

section filters
variable {s : Services} {f g : IssueFilterIdentity} {query other : IssueListQuery}

theorem toVec_injective (h : f.toVec = g.toVec) : f = g := by
  have htext := String.ofList_injective (utf8_injective h)
  have hfields : f.fields = g.fields := object_inj optional_unambiguous rfl htext
  cases f
  cases g
  simp only [IssueFilterIdentity.fields, List.cons.injEq, Prod.mk.injEq, true_and,
    and_true] at hfields
  simp only [IssueFilterIdentity.mk.injEq]
  exact hfields

theorem digest_of_hash (h : issueFilterHash s query = issueFilterHash s other) :
    s.sha256 query.toVec = s.sha256 other.toVec :=
  lowerHex_injective (String.toList_injective h)

theorem mem_hash {p : Char → Prop} (hp : ∀ d < 16, p (hexDigitChar d)) :
    ∀ c ∈ issueFilterHash s query, p c := by
  intro c hc
  unfold issueFilterHash lowerHex at hc
  rw [String.toList_ofList] at hc
  obtain ⟨b, -, hb⟩ := List.mem_flatMap.mp hc
  have hlt := b.toNat_lt
  rcases List.mem_cons.mp hb with rfl | hb
  · exact hp _ (by omega)
  · rw [List.mem_singleton.mp hb]
    exact hp _ (by omega)

theorem byteLength_hash (hs : s.Lawful) : byteLength (issueFilterHash s query) = 64 := by
  rw [byteLength_of_ascii (mem_hash (by decide))]
  unfold issueFilterHash lowerHex
  rw [String.toList_ofList, List.length_flatMap]
  have htwo : ∀ bytes : List UInt8,
      (bytes.map fun b => [hexDigitChar (b.toNat / 16), hexDigitChar (b.toNat % 16)].length).sum =
        2 * bytes.length := by
    intro bytes
    induction bytes with
    | nil => rfl
    | cons b rest ih =>
      rw [List.map_cons, List.sum_cons, ih]
      change 2 + 2 * rest.length = 2 * (rest.length + 1)
      omega
  rw [htwo, hs.digest_length]

end filters

/-! ## Reading back -/

section cursors
variable {s : Services} {scope : ProjectScope} {query other : IssueListQuery} {t : Timestamp}
  {id : Uuid} {projectId text : Text}

/-- The cursor behind a row. -/
def cursorAfter (s : Services) (projectId : Text) (query : IssueListQuery) (t : Timestamp)
    (id : Uuid) : IssueCursor :=
  ⟨1, projectId, issueFilterHash s query, toChar t, uuidText id⟩

theorem plain_of_hex {c : Char} (h : isAsciiHexdigit c = true) : Plain c := by
  unfold isAsciiHexdigit isAsciiDigit at h
  simp only [Bool.or_eq_true, Bool.and_eq_true, decide_eq_true_eq] at h
  have hquotation : quotation.toNat = 0x22 := rfl
  have hbackslash : backslash.toNat = 0x5c := rfl
  refine ⟨fun hc => ?_, fun hc => ?_, by omega⟩
  · rw [hc] at h
    omega
  · rw [hc] at h
    omega

theorem length_toVec (hs : s.Lawful) (ht : t.year < 10 ^ 4) :
    (cursorAfter s scope.projectId query t id).toVec.length ≤ maxCursorBytes := by
  have hproject : byteLength (quote scope.projectId) = 38 := by
    rw [byteLength_quote (validUuid_all scope.valid (fun c => plain_of_hex) (by decide)),
      of_decide_eq_true (Bool.and_eq_true_iff.mp scope.valid).1]
  have hhash : byteLength (quote (issueFilterHash s query)) = 66 := by
    rw [byteLength_quote (mem_hash (by decide)), byteLength_hash hs]
  have htime : byteLength (quote (toChar t)) = 29 := by
    have hplaces : ∀ place ∈ clockPlaces, place.all (fun c => Plain c) := by decide
    rw [byteLength_quote (toChar_all ht (by decide) fun c hc =>
      of_decide_eq_true (hplaces (some c) hc)), byteLength_toChar ht]
  have hid : byteLength (quote (uuidText id)) = 38 := by
    rw [byteLength_quote (uuidText_all (by decide) (by decide)), byteLength_uuidText]
  unfold IssueCursor.toVec
  rw [length_utf8]
  refine le_trans byteLength_object_le ?_
  simp only [cursorAfter, List.map_cons, List.map_nil, List.sum_cons, List.sum_nil, memberSize,
    hproject, hhash, htime, hid]
  decide

theorem encode_cursorAfter (hs : s.Lawful) (ht : t.year < 10 ^ 4) :
    encodeIssueCursor s (cursorAfter s scope.projectId query t id) =
      .ok (s.encode (cursorAfter s scope.projectId query t id).toVec) := by
  unfold encodeIssueCursor
  rw [refuse_of_not (Nat.not_lt.mpr (length_toVec hs ht))]
  rfl

theorem toVec_pos {c : IssueCursor} : 0 < c.toVec.length := by
  unfold IssueCursor.toVec
  rw [length_utf8]
  exact Nat.lt_of_lt_of_le (Char.utf8Size_pos (Char.ofNat 0x7b)) (Nat.le_add_right _ _)

/-- A cursor is read back for its own project and its own filters. -/
theorem decodeIssueCursor_encode (hs : s.Lawful) {c : IssueCursor} (hversion : c.version = 1)
    (hsize : c.toVec.length ≤ maxCursorBytes) (hid : validUuid c.issueId = true)
    (hparse : (s.parse c.lastSeenAt).isSome) :
    decodeIssueCursor s (s.encode c.toVec) projectId text =
      if c.projectId = projectId ∧ c.filterHash = text then .ok c else .error .invalidRequest := by
  have hpos := toVec_pos (c := c)
  have hencoded := hs.encode_size c.toVec
  have hnonempty : ¬(s.encode c.toVec).isEmpty := by
    intro hempty
    rw [List.isEmpty_iff.mp hempty] at hencoded
    change 0 = _ at hencoded
    omega
  have hfits : ¬maxCursorBytes * 2 < byteLength (s.encode c.toVec) := by
    unfold maxCursorBytes at hsize ⊢
    omega
  unfold decodeIssueCursor
  rw [refuse_of_not (not_or.mpr ⟨hnonempty, hfits⟩), ok_bind, hs.decode_encode, okOr_some, ok_bind,
    refuse_of_not (Nat.not_lt.mpr hsize), ok_bind, hs.fromSlice_toVec c hversion, okOr_some,
    ok_bind]
  by_cases hsame : c.projectId = projectId ∧ c.filterHash = text
  · rw [if_pos hsame, refuse_of_not, ok_bind, pure_eq_ok]
    rintro (h | h | h | h | h)
    · exact h hversion
    · exact h hsame.1
    · exact h hsame.2
    · exact h hid
    · exact Option.isSome_iff_ne_none.mp hparse h
  · rw [if_neg hsame, refuse_of, error_bind]
    by_cases hproject : c.projectId = projectId
    · exact .inr (.inr (.inl fun hhash => hsame ⟨hproject, hhash⟩))
    · exact .inr (.inl hproject)

theorem decode_cursorAfter (hs : s.Lawful) (ht : t.year < 10 ^ 4) :
    decodeIssueCursor s (s.encode (cursorAfter s scope.projectId query t id).toVec) projectId text =
      if scope.projectId = projectId ∧ issueFilterHash s query = text then
        .ok (cursorAfter s scope.projectId query t id)
      else .error .invalidRequest := by
  have hsize : (cursorAfter s scope.projectId query t id).toVec.length ≤ maxCursorBytes :=
    length_toVec hs ht
  have hid : validUuid (cursorAfter s scope.projectId query t id).issueId = true := by
    dsimp only [cursorAfter]
    exact validUuid_text
  have hparse : (s.parse (cursorAfter s scope.projectId query t id).lastSeenAt).isSome := by
    dsimp only [cursorAfter]
    exact hs.parse_toChar t ht
  rw [decodeIssueCursor_encode hs (c := cursorAfter s scope.projectId query t id) rfl hsize hid
    hparse]
  rfl

end cursors
end FaultLane.IssueList
