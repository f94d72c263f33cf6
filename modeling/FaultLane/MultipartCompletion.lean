import FaultLane.MultipartSessions
import Mathlib.Data.List.Sort

set_option autoImplicit false

/-!
# From a negotiated session to its full set of parts

The tool and the service on one session, over an object store that keeps what it is sent:
every part is signed, stored and recorded, and the rows pass the check of the completion.
-/
namespace FaultLane.MultipartUpload
open Fallible FaultLane.Machine RustText SymbolUpload Tilings

/-- The laws of the digests that the service relies on. -/
structure Digests.Lawful (digests : Digests) : Prop where
  md5_length : ∀ bytes, (digests.md5 bytes).length = 16
  encode_length : ∀ bytes, byteLength (digests.encode (digests.md5 bytes)) = 24
  decode_encode : ∀ bytes,
    digests.decode (digests.encode (digests.md5 bytes)) = some (digests.md5 bytes)

/-- The entity tag of a stored part: its MD5 in quotes. -/
def quotedMd5 (digests : Digests) (bytes : List UInt8) : Text :=
  '"' :: (lowerHexBytes (digests.md5 bytes) ++ ['"'])

/-- The store signs requests, and lists a part that was put with its tag and size. -/
structure ObjectStore.Faithful {τ : Type} (store : ObjectStore τ) (digests : Digests) : Prop where
  signs : ∀ number byteSize contentMd5, (store.signPart number byteSize contentMd5).isSome = true
  puts : ∀ (number : Int32) (byteSize : Int64) signed bytes stored,
    store.signPart number byteSize (digests.encode (digests.md5 bytes)) = some signed →
      (bytes.length : Int) = byteSize.toInt →
        (store.put ⟨"PUT", signed.1, signed.2, presignSeconds⟩ bytes stored).1 =
            .ok (quotedMd5 digests bytes) ∧
          store.providerPart number
              (store.put ⟨"PUT", signed.1, signed.2, presignSeconds⟩ bytes stored).2 =
            some (some ⟨number, quotedMd5 digests bytes, bytes.length⟩)

/-! ## Entity tags -/

theorem hexDigitChar_plain : ∀ n < 16,
    (hexDigitChar n == '"') = false ∧ isControl (hexDigitChar n) = false ∧
      isWhitespace (hexDigitChar n) = false ∧ (hexDigitChar n).utf8Size = 1 := by
  decide

theorem lowerHexBytes_plain {bytes : List UInt8} {c : Char} (h : c ∈ lowerHexBytes bytes) :
    (c == '"') = false ∧ isControl c = false ∧ isWhitespace c = false ∧ c.utf8Size = 1 := by
  obtain ⟨byte, -, hc⟩ := List.mem_flatMap.mp h
  have hbyte := byte.toNat_lt
  simp only [List.mem_cons, List.not_mem_nil, or_false] at hc
  rcases hc with rfl | rfl
  · exact hexDigitChar_plain _ (by omega)
  · exact hexDigitChar_plain _ (by omega)

theorem length_lowerHexBytes (bytes : List UInt8) :
    (lowerHexBytes bytes).length = 2 * bytes.length := by
  induction bytes with
  | nil => rfl
  | cons byte bytes ih =>
    unfold lowerHexBytes at ih ⊢
    rw [List.flatMap_cons, List.length_append, ih, List.length_cons, List.length_cons,
      List.length_cons, List.length_nil]
    omega

theorem dropWhile_quote {text : Text} (h : ∀ c ∈ text, (c == '"') = false) :
    text.dropWhile (· == '"') = text := by
  cases text with
  | nil => rfl
  | cons c text => rw [List.dropWhile_cons, h c List.mem_cons_self, if_neg Bool.false_ne_true]

theorem trimQuotes_quoted {text : Text} (h : ∀ c ∈ text, (c == '"') = false) :
    trimQuotes ('"' :: (text ++ ['"'])) = text := by
  have hend : ∀ c ∈ text.reverse, (c == '"') = false := fun c hc => h c (List.mem_reverse.mp hc)
  have hquote : ∀ rest : Text, ('"' :: rest).dropWhile (· == '"') = rest.dropWhile (· == '"') :=
    fun _ => rfl
  have hfront : ('"' :: (text ++ ['"'])).dropWhile (· == '"') =
      if text = [] then [] else text ++ ['"'] := by
    cases text with
    | nil => rfl
    | cons c text =>
      rw [if_neg (List.cons_ne_nil c text), hquote, List.cons_append, List.dropWhile_cons,
        h c List.mem_cons_self, if_neg Bool.false_ne_true]
  unfold trimQuotes
  rw [hfront]
  by_cases htext : text = []
  · rw [if_pos htext, htext]
    rfl
  · rw [if_neg htext, List.reverse_append, List.reverse_singleton, List.singleton_append,
      hquote, dropWhile_quote hend, List.reverse_reverse]

section
variable {digests : Digests}

theorem trimQuotes_quotedMd5 (bytes : List UInt8) :
    trimQuotes (quotedMd5 digests bytes) = lowerHexBytes (digests.md5 bytes) :=
  trimQuotes_quoted fun _ hc => (lowerHexBytes_plain hc).1

theorem quotedMd5_plain {bytes : List UInt8} {c : Char} (h : c ∈ quotedMd5 digests bytes) :
    isControl c = false ∧ isWhitespace c = false ∧ c.utf8Size = 1 := by
  have hquote : isControl '"' = false ∧ isWhitespace '"' = false ∧ '"'.utf8Size = 1 := by decide
  rcases List.mem_cons.mp h with rfl | h
  · exact hquote
  · rcases List.mem_append.mp h with h | h
    · exact (lowerHexBytes_plain h).2
    · rw [List.mem_singleton.mp h]
      exact hquote

theorem byteLength_of_ascii {text : Text} (h : ∀ c ∈ text, c.utf8Size = 1) :
    byteLength text = text.length := by
  induction text with
  | nil => rfl
  | cons c text ih =>
    have hrest := ih fun c hc => h c (List.mem_cons_of_mem _ hc)
    unfold byteLength at hrest ⊢
    rw [List.map_cons, List.sum_cons, hrest, h c List.mem_cons_self, List.length_cons]
    omega

theorem validEtag_quotedMd5 (hlawful : digests.Lawful) (bytes : List UInt8) :
    validEtag (quotedMd5 digests bytes) = true := by
  have hlength : byteLength (quotedMd5 digests bytes) = 34 := by
    rw [byteLength_of_ascii fun c hc => (quotedMd5_plain hc).2.2]
    unfold quotedMd5
    rw [List.length_cons, List.length_append, length_lowerHexBytes, hlawful.md5_length]
    rfl
  have hcontrol : (quotedMd5 digests bytes).any isControl = false :=
    List.any_eq_false.mpr fun c hc => by rw [(quotedMd5_plain hc).1]; exact Bool.false_ne_true
  have hspace : (quotedMd5 digests bytes).any isWhitespace = false :=
    List.any_eq_false.mpr fun c hc => by rw [(quotedMd5_plain hc).2.1]; exact Bool.false_ne_true
  unfold validEtag
  rw [hlength, hcontrol, hspace]
  rfl

theorem validContentMd5_encode (hlawful : digests.Lawful) (bytes : List UInt8) :
    validContentMd5 digests (digests.encode (digests.md5 bytes)) = true := by
  unfold validContentMd5 Digests.decodesTo16
  rw [hlawful.encode_length, hlawful.decode_encode, Option.any_some, hlawful.md5_length]
  rfl

theorem etagMatchesMd5_quoted (hlawful : digests.Lawful) (bytes : List UInt8) :
    etagMatchesMd5 digests (quotedMd5 digests bytes) (digests.encode (digests.md5 bytes)) =
      true := by
  unfold etagMatchesMd5
  rw [hlawful.decode_encode, Option.any_some, trimQuotes_quotedMd5, beq_self_eq_true]

end

/-! ## One part -/

/-- A machine that reads the file. -/
structure Cli.LocalHost.Reads (host : Cli.LocalHost) : Prop where
  opens : host.opens = true
  reserves : ∀ size, host.reserves size = true
  reads : ∀ offset size, (host.readExact offset size).isSome = true

section
variable {τ : Type} {digests : Digests} {store : ObjectStore τ} {session : PartSession}
  {number : Int32} {byteSize : Int64}

theorem signUploadPart_eq_ok (hlawful : digests.Lawful) (hactive : session.state = .active)
    (hlive : session.expired = false)
    (hexpected : expectedPartSize session number = .ok byteSize.toInt) (bytes : List UInt8)
    {signed : Text × List (Text × Text)}
    (hsigned : store.signPart number byteSize (digests.encode (digests.md5 bytes)) =
      some signed) :
    signUploadPart digests store session
        ⟨number, byteSize, digests.encode (digests.md5 bytes)⟩ =
      .ok ⟨"PUT", signed.1, signed.2, presignSeconds⟩ := by
  obtain ⟨hfirst, hlast⟩ := expectedPartSize_range hexpected
  have hstate : ¬ (session.state ≠ .active ∨ session.expired = true) := by
    rw [hactive, hlive]
    decide
  have hcheck : ¬ (byteSize.toInt ≠ byteSize.toInt ∨
      ¬ validContentMd5 digests (digests.encode (digests.md5 bytes)) = true) := by
    rw [not_or, not_not, not_not]
    exact ⟨rfl, validContentMd5_encode hlawful bytes⟩
  unfold signUploadPart
  rw [refuse_of_not hstate, ok_bind, refuse_of_not (by dsimp only; omega), ok_bind, hexpected,
    ok_bind, refuse_of_not hcheck, ok_bind, hsigned, okOr_some, ok_bind]

theorem recordUploadPart_of_stored (hlawful : digests.Lawful) (hactive : session.state = .active)
    (hlive : session.expired = false)
    (hexpected : expectedPartSize session number = .ok byteSize.toInt)
    (hcount : session.partCount.toInt ≤ 10000) {bytes : List UInt8}
    (hlength : (bytes.length : Int) = byteSize.toInt) (hpositive : 0 < bytes.length)
    (hsmall : bytes.length < 2 ^ 31) {stored : τ}
    (hstored : store.providerPart number stored =
      some (some ⟨number, quotedMd5 digests bytes, bytes.length⟩)) (rows : PartRows) :
    ∃ rows', recordUploadPart digests store session stored number
      ⟨quotedMd5 digests bytes, byteSize, digests.encode (digests.md5 bytes)⟩ rows =
        .ok rows' := by
  obtain ⟨hfirst, hlast⟩ := expectedPartSize_range hexpected
  have hstate : ¬ (session.state ≠ .active ∨ session.expired = true) := by
    rw [hactive, hlive]
    decide
  have hrequest : ¬ (byteSize.toInt ≠ byteSize.toInt ∨
      ¬ validContentMd5 digests (digests.encode (digests.md5 bytes)) = true ∨
        ¬ validEtag (quotedMd5 digests bytes) = true) := by
    rw [not_or, not_or, not_not, not_not, not_not]
    exact ⟨rfl, validContentMd5_encode hlawful bytes, validEtag_quotedMd5 hlawful bytes⟩
  have hprovider : ¬ ((bytes.length : Int) ≠ byteSize.toInt ∨
      ¬ sameEtag (quotedMd5 digests bytes) (quotedMd5 digests bytes) = true ∨
        ¬ etagMatchesMd5 digests (quotedMd5 digests bytes)
          (digests.encode (digests.md5 bytes)) = true) := by
    rw [not_or, not_or, not_not, not_not, not_not]
    exact ⟨hlength, beq_self_eq_true _, etagMatchesMd5_quoted hlawful bytes⟩
  obtain ⟨size, hsize, hvalue⟩ := exists_toI32 (x := byteSize.toInt) (by omega) (by omega)
  refine ⟨SortedMap.insert number.toInt
    ⟨number, quotedMd5 digests bytes, digests.encode (digests.md5 bytes), size⟩ rows, ?_⟩
  unfold recordUploadPart
  rw [refuse_of_not hstate, ok_bind, refuse_of_not (by omega), ok_bind, hexpected, ok_bind,
    refuse_of_not hrequest, ok_bind, hstored, okOr_some, ok_bind, okOr_some, ok_bind,
    refuse_of_not hprovider, ok_bind, hsize, okOr_some, ok_bind, refuse_of_not (by omega),
    ok_bind]

/-- An active session for an artifact, and a view of it. -/
structure Negotiated (session : PartSession) (artifact : Cli.LocalArtifact)
    (view : Cli.UploadView) (rows : PartRows) : Prop where
  active : session.state = .active
  live : session.expired = false
  fits : FitsArtifact session artifact.byteSize
  view : ViewOf session rows view

section
variable {host : Cli.LocalHost} {artifact : Cli.LocalArtifact} {view : Cli.UploadView}
  {rows₀ : PartRows}

theorem Negotiated.partAt_size (h : Negotiated session artifact view rows₀) {n : Nat}
    (hfirst : 1 ≤ n) (hlast : n ≤ view.partCount.toNat) :
    0 < (Cli.partAt artifact view n).byteSize ∧
      (Cli.partAt artifact view n).byteSize ≤ partBytes := by
  have hplan := Cli.validPlan_iff.mp (h.view.validPlan h.fits)
  have hoffset : (n - 1) * view.partSize.toNat < artifact.byteSize.toNat :=
    mul_lt_of_lt_divCeil (by omega)
  have hsize : view.partSize.toNat = partBytes := by
    have := h.view.partSize
    have := h.fits.partSize
    omega
  change 0 < min _ _ ∧ min _ _ ≤ _
  omega

/-- One part is signed, stored and recorded. -/
theorem transferPart_session (hlawful : digests.Lawful) (hfaithful : store.Faithful digests)
    (hreads : host.Reads) (h : Negotiated session artifact view rows₀) {rows : PartRows}
    (hrows : ValidRows digests session rows) {n : Nat} (hfirst : 1 ≤ n)
    (hlast : n ≤ view.partCount.toNat) (stored : τ) (requests : List Cli.Request) :
    ∃ rows' stored' requests',
      Cli.transferPart digests host (sessionApi digests store session) artifact view
          (Cli.partAt artifact view n) ⟨⟨rows, stored⟩, requests⟩ =
        (.ok (), ⟨⟨rows', stored'⟩, requests'⟩) ∧
      ValidRows digests session rows' ∧
      ∀ key, key ∈ rows'.keys ↔ key = (n : Int) ∨ key ∈ rows.keys := by
  obtain ⟨hpositive, hsmall⟩ := h.partAt_size hfirst hlast
  have hbytes : partBytes < 2 ^ 31 := by decide
  have hlimit : view.partCount.toNat ≤ 10000 := by
    have := h.view.partCount
    have := h.fits.last
    omega
  obtain ⟨number, hnumber, hvalue⟩ := exists_toI32 (x := (n : Int)) (by omega) (by omega)
  obtain ⟨byteSize, hsize, hsizeValue⟩ :=
    exists_toI64 (x := ((Cli.partAt artifact view n).byteSize : Int)) (by omega) (by omega)
  have hexpected := h.view.expectedPartSize h.fits hvalue hfirst hlast
  rw [← hsizeValue] at hexpected
  obtain ⟨bytes, hread⟩ := Option.isSome_iff_exists.mp
    (hreads.reads (Cli.partAt artifact view n).offset (Cli.partAt artifact view n).byteSize)
  have hlength : (bytes.val.length : Int) = byteSize.toInt := by
    rw [hsizeValue, bytes.property]
  obtain ⟨signed, hsigned⟩ := Option.isSome_iff_exists.mp
    (hfaithful.signs number byteSize (digests.encode (digests.md5 bytes.val)))
  obtain ⟨hput, hstored⟩ := hfaithful.puts number byteSize signed bytes.val stored hsigned hlength
  have hsign := signUploadPart_eq_ok hlawful h.active h.live hexpected bytes.val hsigned
  obtain ⟨rows', hrecord⟩ := recordUploadPart_of_stored hlawful h.active h.live hexpected
    h.fits.last hlength (by rw [bytes.property]; exact hpositive)
    (by rw [bytes.property]; omega) hstored rows
  have hnumber' : toI32 ((Cli.partAt artifact view n).number : Int) = some number := hnumber
  have hmethod : ¬ ((("PUT" : String) ≠ "PUT") ∨ presignSeconds = 0) := by decide
  obtain ⟨row, hrow, hinsert⟩ := recordUploadPart_eq_ok hrecord
  refine ⟨rows', (store.put ⟨"PUT", signed.1, signed.2, presignSeconds⟩ bytes.val stored).2,
    requests ++ [.sign (Cli.partAt artifact view n)] ++
      [.put (Cli.partAt artifact view n) bytes.val] ++ [.record (Cli.partAt artifact view n)],
    ?_, ?_, ?_⟩
  · unfold Cli.transferPart
    rw [if_pos (hreads.reserves _), hread, hnumber', hsize]
    simp only [Cli.Sending.bind, Cli.ofOption, okOr_some, Cli.call, sessionApi, hsign,
      Except.mapError, if_neg hmethod, hput]
    have hpath : recordPart digests store session (Cli.partAt artifact view n).number
        ⟨quotedMd5 digests bytes.val, byteSize, digests.encode (digests.md5 bytes.val)⟩
        ⟨rows, (store.put ⟨"PUT", signed.1, signed.2, presignSeconds⟩ bytes.val stored).2⟩ =
          .ok rows' := by
      unfold recordPart
      rw [hnumber', okOr_some, ok_bind]
      exact hrecord
    rw [hpath]
  · rw [hinsert]
    exact hrows.insert hrow
  · intro key
    rw [hinsert, SortedMap.mem_keys_insert, hvalue]

/-- The loop over the parts records every number that is not completed. -/
theorem sendParts_session (hlawful : digests.Lawful) (hfaithful : store.Faithful digests)
    (hreads : host.Reads) (h : Negotiated session artifact view rows₀) (completed : List Int32)
    (numbers : List Nat) (hnumbers : ∀ n ∈ numbers, 1 ≤ n ∧ n ≤ view.partCount.toNat)
    {rows : PartRows} (hrows : ValidRows digests session rows) (transferred : Nat)
    (hbound : transferred + numbers.length * partBytes < 2 ^ 64) (stored : τ)
    (requests : List Cli.Request) :
    ∃ total rows' stored' requests',
      (Cli.sendParts digests host (sessionApi digests store session) artifact view completed
          transferred ⟨⟨rows, stored⟩, requests⟩ numbers).value =
        (.ok total, ⟨⟨rows', stored'⟩, requests'⟩) ∧
      ValidRows digests session rows' ∧ (∀ key ∈ rows.keys, key ∈ rows'.keys) ∧
      ∀ n ∈ numbers, (n : Int) ∉ completed.map Int32.toInt → (n : Int) ∈ rows'.keys := by
  have hplan := h.view.validPlan h.fits
  induction numbers generalizing rows transferred stored requests with
  | nil => exact ⟨transferred, rows, stored, requests, rfl, hrows, fun _ hkey => hkey, nofun⟩
  | cons n numbers ih =>
    obtain ⟨hfirst, hlast⟩ := hnumbers n List.mem_cons_self
    have hothers : ∀ m ∈ numbers, 1 ≤ m ∧ m ≤ view.partCount.toNat :=
      fun m hm => hnumbers m (List.mem_cons_of_mem _ hm)
    rw [List.length_cons, Nat.succ_mul] at hbound
    unfold Cli.sendParts
    by_cases hmem : (n : Int) ∈ completed.map Int32.toInt
    · rw [Cli.sendPart_of_mem hplan hlast hmem, Arithmetic.pure_bind]
      obtain ⟨total, rows', stored', requests', hrun, hvalid, hkeys, hall⟩ :=
        ih hothers hrows transferred (by omega) stored requests
      refine ⟨total, rows', stored', requests', hrun, hvalid, hkeys, fun m hm hnot => ?_⟩
      rcases List.mem_cons.mp hm with rfl | hm
      · exact absurd hmem hnot
      · exact hall m hm hnot
    · obtain ⟨-, hsize⟩ := h.partAt_size hfirst hlast
      obtain ⟨rows₁, stored₁, requests₁, htransfer, hvalid₁, hkeys₁⟩ :=
        transferPart_session hlawful hfaithful hreads h hrows hfirst hlast stored requests
      have hadd : checkedAddU64 transferred (Cli.partAt artifact view n).byteSize =
          some (transferred + (Cli.partAt artifact view n).byteSize) := if_pos (by omega)
      obtain ⟨total, rows', stored', requests', hrun, hvalid, hkeys, hall⟩ :=
        ih hothers hvalid₁ (transferred + (Cli.partAt artifact view n).byteSize) (by omega) stored₁
          requests₁
      rw [Cli.sendPart_of_not_mem hplan hfirst hlast hmem, htransfer]
      dsimp only
      rw [hadd, okOr_some, Arithmetic.pure_bind]
      refine ⟨total, rows', stored', requests', hrun, hvalid, fun key hkey => ?_,
        fun m hm hnot => ?_⟩
      · exact hkeys key ((hkeys₁ key).mpr (Or.inr hkey))
      · rcases List.mem_cons.mp hm with rfl | hm
        · exact hkeys _ ((hkeys₁ _).mpr (Or.inl rfl))
        · exact hall m hm hnot

end

/-! ## The check before the completion -/

def providerPart (row : PartRow) : ProviderPart := ⟨row.partNumber, row.etag, row.byteSize.toInt⟩

theorem checkRows_eq_ok (rows : PartRows) (index : Nat)
    (hvalid : ∀ key row, (key, row) ∈ rows → ValidRow digests session key row)
    (hkeys : rows.keys = (List.range' (index + 1) rows.length).map Int.ofNat)
    (hbound : index + rows.length < 2 ^ 31) :
    checkRows session index rows.values = .ok (rows.values.map providerPart) := by
  induction rows generalizing index with
  | nil => rfl
  | cons entry rows ih =>
    obtain ⟨key, row⟩ := entry
    unfold SortedMap.keys at hkeys ih
    rw [List.length_cons, List.range'_succ, List.map_cons, List.map_cons, List.cons.injEq] at hkeys
    rw [List.length_cons] at hbound
    have hrow := hvalid key row List.mem_cons_self
    have hkey : key = ((index + 1 : Nat) : Int) := hkeys.1
    have hnumber : toI32 ((index : Int) + 1) = some row.partNumber := by
      rw [toI32_eq_some, hrow.number, hkey]
      rfl
    have hrest := ih (index + 1) (fun k r hmem => hvalid k r (List.mem_cons_of_mem _ hmem))
      hkeys.2 (by omega)
    unfold SortedMap.values at hrest ⊢
    unfold checkRows
    rw [List.map_cons, List.map_cons]
    dsimp only
    rw [hnumber, okOr_some, ok_bind, refuse_of_not (not_not_intro rfl), ok_bind, hrow.size,
      ok_bind, refuse_of_not (not_not_intro rfl), ok_bind, hrest, ok_bind]
    rfl

/-- A full set of rows passes. -/
theorem loadProviderParts_eq_ok {byteSize : UInt64} (hfits : FitsArtifact session byteSize)
    {rows : PartRows} (hrows : ValidRows digests session rows)
    (hfull : ∀ n : Nat, 1 ≤ n → (n : Int) ≤ session.partCount.toInt → (n : Int) ∈ rows.keys) :
    loadProviderParts session rows = .ok (rows.values.map providerPart) := by
  have hfirst := hfits.first
  have hlast := hfits.last
  have hcount : session.partCount.toInt = (session.partCount.toInt.toNat : Nat) := by omega
  have hkeys : rows.keys =
      (List.range' 1 session.partCount.toInt.toNat).map Int.ofNat := by
    have hsorted : ((List.range' 1 session.partCount.toInt.toNat).map Int.ofNat).Pairwise
        (· < ·) := by
      have hrange : (List.range' 1 session.partCount.toInt.toNat).Pairwise (· < ·) :=
        List.pairwise_lt_range' 1
      rw [List.pairwise_map]
      exact hrange.imp fun hlt => Int.ofNat_lt.mpr hlt
    refine List.Pairwise.eq_of_mem_iff hrows.sorted hsorted fun key => ?_
    rw [List.mem_map]
    constructor
    · intro hkey
      obtain ⟨⟨k, row⟩, hentry, rfl⟩ := List.mem_map.mp hkey
      have hrow := hrows.valid k row hentry
      obtain ⟨hlow, hhigh⟩ := expectedPartSize_range hrow.size
      rw [hrow.number] at hlow hhigh
      refine ⟨k.toNat, List.mem_range'_1.mpr ⟨by omega, by omega⟩, ?_⟩
      change ((k.toNat : Nat) : Int) = k
      omega
    · rintro ⟨n, hn, rfl⟩
      have hrange := List.mem_range'_1.mp hn
      exact hfull n hrange.1 (by omega)
  have hlength : rows.length = session.partCount.toInt.toNat := by
    have hlen := congrArg List.length hkeys
    rw [List.length_map, List.length_range'] at hlen
    unfold SortedMap.keys at hlen
    rw [List.length_map] at hlen
    exact hlen
  unfold loadProviderParts
  rw [toU64_of_nonneg (by omega) (by omega), okOr_some, ok_bind,
    refuse_of_not (not_not_intro hlength), ok_bind]
  exact checkRows_eq_ok rows 0 hrows.valid (by rw [hkeys, hlength]) (by omega)

end
end FaultLane.MultipartUpload
