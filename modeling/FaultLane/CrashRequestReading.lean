import FaultLane.Fallible
import FaultLane.BoundedHistory
import FaultLane.CrashRequest

set_option autoImplicit false

/-!
# What the decoder's reads return

Each read of the decoder as a statement about the bytes still available: the
pieces the source delivers them in no longer show.
-/
namespace FaultLane.CrashRequestReading
open Fallible RustText LogTail CrashContext CrashRequest BoundedHistory

def Inv (r : ExpandedReader) : Prop := r.bytesRead ≤ r.limit

/-- The bytes that can still be read within the limit. -/
def avail (r : ExpandedReader) : List UInt8 := r.inner.content.take (r.limit - r.bytesRead)

def skip (k : Nat) (r : ExpandedReader) : ExpandedReader :=
  { r with inner := r.inner.skip k, bytesRead := r.bytesRead + k }

def ending (r : ExpandedReader) : Option CrashRequestErrorKind :=
  if r.limit - r.bytesRead < r.inner.content.length then some .expandedTooLarge
  else r.inner.failure

theorem source_content_skip (k : Nat) (s : ByteReader.Source CrashRequestErrorKind) :
    (s.skip k).content = s.content.drop k :=
  ByteReader.Source.skipChunks_flatten k s.chunks

theorem source_read_more (s : ByteReader.Source CrashRequestErrorKind) (n : Nat) (hn : 0 < n)
    (h : s.content ≠ []) :
    ∃ k, 0 < k ∧ k ≤ n ∧ k ≤ s.content.length ∧ s.read n = .ok (s.content.take k, s.skip k) := by
  obtain ⟨k, hk, hkn, hkl, hr⟩ := ByteReader.Source.readChunks_cons s.failure n s.chunks hn h
  exact ⟨k, hk, hkn, hkl, by simp only [ByteReader.Source.read, hr]; rfl⟩

theorem source_read_end (s : ByteReader.Source CrashRequestErrorKind) (n : Nat)
    (h : s.content = []) :
    s.read n = match s.failure with
      | none => .ok ([], { s with chunks := [] })
      | some e => .error e := by
  unfold ByteReader.Source.read
  rw [ByteReader.Source.readChunks_nil s.failure n s.chunks h]
  cases s.failure <;> rfl

theorem avail_length_le (r : ExpandedReader) :
    (avail r).length ≤ r.limit - r.bytesRead ∧ (avail r).length ≤ r.inner.content.length := by
  unfold avail
  rw [List.length_take]
  exact ⟨Nat.min_le_left _ _, Nat.min_le_right _ _⟩

theorem avail_skip (r : ExpandedReader) (k : Nat) : avail (skip k r) = (avail r).drop k := by
  unfold avail skip
  rw [source_content_skip, List.drop_take, Nat.sub_add_eq]

theorem read_more (r : ExpandedReader) (n : Nat) (_ : Inv r) (hn : 0 < n) (ha : avail r ≠ []) :
    ∃ k, 0 < k ∧ k ≤ n ∧ k ≤ (avail r).length ∧
      r.read n = .ok ((avail r).take k, skip k r) := by
  have hpos : 0 < (avail r).length := List.length_pos_iff.mpr ha
  have hle := avail_length_le r
  have hc : r.inner.content ≠ [] := List.ne_nil_of_length_pos (by omega)
  obtain ⟨k, hk, hkn, hkl, hread⟩ :=
    source_read_more r.inner (min (r.limit - r.bytesRead) n) (by omega) hc
  have hlen : (avail r).length = min (r.limit - r.bytesRead) r.inner.content.length := by
    simp [avail, List.length_take]
  refine ⟨k, hk, by omega, by omega, ?_⟩
  have htake : (avail r).take k = r.inner.content.take k := by
    rw [avail, List.take_take, Nat.min_eq_left (by omega)]
  unfold ExpandedReader.read
  rw [if_neg (by omega), if_neg (by omega)]
  simp only [hread, htake, skip, List.length_take, Nat.min_eq_left hkl]

theorem read_end (r : ExpandedReader) (n : Nat) (hr : Inv r) (hn : 0 < n) (ha : avail r = []) :
    match ending r with
    | some kind => r.read n = .error kind
    | none => ∃ t, r.read n = .ok ([], t) ∧ t.bytesRead = r.bytesRead := by
  have hlen : min (r.limit - r.bytesRead) r.inner.content.length = 0 := by
    simpa [avail, List.length_take] using congrArg List.length ha
  unfold Inv at hr
  have hn0 : n ≠ 0 := by omega
  by_cases hc : r.inner.content = []
  · have he : ending r = r.inner.failure := by
      unfold ending
      rw [hc, if_neg (by simp)]
    rw [he]
    unfold ExpandedReader.read
    simp only [hn0, ↓reduceIte, source_read_end _ _ hc]
    cases r.inner.failure with
    | none => split_ifs <;> exact ⟨_, rfl, rfl⟩
    | some kind => split_ifs <;> rfl
  · have hpos : 0 < r.inner.content.length := List.length_pos_iff.mpr hc
    have hlim : r.bytesRead = r.limit := by omega
    have he : ending r = some .expandedTooLarge := by
      unfold ending
      rw [if_pos (by omega)]
    obtain ⟨k, hk, hk1, _, hread⟩ := source_read_more r.inner 1 Nat.one_pos hc
    obtain rfl : k = 1 := by omega
    obtain ⟨b, rest, hb⟩ := List.exists_cons_of_ne_nil hc
    rw [hb] at hread
    rw [he]
    unfold ExpandedReader.read
    simp only [hn0, ↓reduceIte, hlim, hread, List.take_succ_cons]

theorem skip_inv (r : ExpandedReader) (k : Nat) (hr : Inv r) (hk : k ≤ (avail r).length) :
    Inv (skip k r) := by
  have hle := (avail_length_le r).1
  unfold Inv at hr
  change r.bytesRead + k ≤ r.limit
  omega

theorem skip_zero (r : ExpandedReader) : skip 0 r = r := by
  simp [skip, ByteReader.Source.skip, ByteReader.Source.skipChunks_zero]

theorem skip_add (r : ExpandedReader) (j k : Nat) : skip k (skip j r) = skip (j + k) r := by
  simp only [skip, ByteReader.Source.skip, ByteReader.Source.skipChunks_add, Nat.add_assoc]

theorem ending_skip (r : ExpandedReader) (k : Nat) (hr : Inv r) (hk : k ≤ (avail r).length) :
    ending (skip k r) = ending r := by
  have hle := avail_length_le r
  unfold Inv at hr
  unfold ending skip
  rw [source_content_skip, List.length_drop]
  have hiff : r.limit - (r.bytesRead + k) < r.inner.content.length - k ↔
      r.limit - r.bytesRead < r.inner.content.length := by omega
  simp only [hiff]
  rfl

def view : ByteReader.View ExpandedReader.read where
  Inv := Inv
  avail := avail
  skip := skip
  ending := ending
  skip_inv := skip_inv
  skip_zero := skip_zero
  skip_add := skip_add
  avail_skip r k _ _ := avail_skip r k
  ending_skip := ending_skip
  read_more := read_more
  read_end r n hr hn ha := by
    have h := read_end r n hr hn ha
    cases he : ending r with
    | none =>
      rw [he] at h
      exact ⟨h.choose, h.choose_spec.1⟩
    | some kind =>
      rw [he] at h
      exact h

theorem readExact_eq (r : ExpandedReader) (n : Nat) (hr : Inv r) :
    readExact r n =
      if n ≤ (avail r).length then .ok ((avail r).take n, skip n r)
      else reject ((ending r).getD .truncatedArchive) := by
  have h := ByteReader.readExact_eq view .truncatedArchive n r hr
  change _ = if n ≤ (avail r).length then Except.ok ((avail r).take n, skip n r)
    else Except.error ((ending r).getD .truncatedArchive) at h
  unfold readExact
  rw [h]
  split_ifs <;> rfl

/-- `r` reads exactly `bytes` and is then `t`. -/
structure Steps (r : ExpandedReader) (bytes : List UInt8) (t : ExpandedReader) : Prop where
  inv : Inv r
  reached : t = skip bytes.length r
  split : avail r = bytes ++ avail t

theorem Steps.nil {r : ExpandedReader} (hr : Inv r) : Steps r [] r :=
  ⟨hr, (skip_zero r).symm, rfl⟩

theorem Steps.inv' {r t : ExpandedReader} {bytes : List UInt8} (h : Steps r bytes t) : Inv t := by
  rw [h.reached]
  exact skip_inv r bytes.length h.inv (by rw [h.split]; simp)

theorem Steps.bytesRead {r t : ExpandedReader} {bytes : List UInt8} (h : Steps r bytes t) :
    t.bytesRead = r.bytesRead + bytes.length := by
  rw [h.reached]
  rfl

theorem Steps.trans {r s t : ExpandedReader} {as bs : List UInt8} (h : Steps r as s)
    (h' : Steps s bs t) : Steps r (as ++ bs) t := by
  refine ⟨h.inv, ?_, ?_⟩
  · rw [h'.reached, h.reached, List.length_append]
    exact skip_add r as.length bs.length
  · rw [h.split, h'.split, List.append_assoc]

theorem steps_of_avail {r : ExpandedReader} {bytes rest : List UInt8} (hr : Inv r)
    (h : avail r = bytes ++ rest) :
    Steps r bytes (skip bytes.length r) ∧ avail (skip bytes.length r) = rest := by
  have ha : avail (skip bytes.length r) = rest := by
    rw [avail_skip, h, List.drop_left]
  exact ⟨⟨hr, rfl, by rw [ha, h]⟩, ha⟩

theorem readExact_iff {r t : ExpandedReader} {n : Nat} {bytes : List UInt8} (hr : Inv r) :
    readExact r n = .ok (bytes, t) ↔ bytes.length = n ∧ Steps r bytes t := by
  rw [readExact_eq r n hr]
  constructor
  · intro h
    split_ifs at h with hn
    · cases h
      have hlen : ((avail r).take n).length = n := by simp [hn]
      refine ⟨hlen, hr, by rw [hlen], ?_⟩
      rw [avail_skip, List.take_append_drop]
    · cases h
  · rintro ⟨rfl, h⟩
    rw [if_pos (by rw [h.split]; simp), h.reached, h.split, List.take_left]

theorem discardLoop_eq (fuel remaining : Nat) (r : ExpandedReader) (hr : Inv r)
    (hf : remaining ≤ fuel) :
    discardLoop fuel remaining r =
      if remaining ≤ (avail r).length then .ok (skip remaining r)
      else reject ((ending r).getD .truncatedArchive) := by
  induction fuel generalizing remaining r with
  | zero =>
    obtain rfl : remaining = 0 := by omega
    rw [if_pos (Nat.zero_le _), skip_zero]
    rfl
  | succ fuel ih =>
    unfold discardLoop
    by_cases hz : remaining = 0
    · subst hz
      rw [if_pos rfl, if_pos (Nat.zero_le _), skip_zero]
    · rw [if_neg hz]
      have hb : 0 < readBufferBytes := by decide
      simp only [readExact_eq r _ hr]
      by_cases hc : min remaining readBufferBytes ≤ (avail r).length
      · have hi := skip_inv r (min remaining readBufferBytes) hr hc
        have hlen : (avail (skip (min remaining readBufferBytes) r)).length =
            (avail r).length - min remaining readBufferBytes := by
          rw [avail_skip, List.length_drop]
        simp only [if_pos hc, ok_bind]
        rw [ih _ _ hi (by omega), hlen, ending_skip r _ hr hc]
        by_cases hl : remaining ≤ (avail r).length
        · rw [if_pos hl, if_pos (by omega)]
          exact congrArg Except.ok ((skip_add r _ _).trans (by congr 1; omega))
        · rw [if_neg hl, if_neg (by omega)]
      · simp only [if_neg hc]
        rw [if_neg (by omega)]
        rfl

theorem discard_eq (r : ExpandedReader) (size : Nat) (hr : Inv r) :
    discard r size =
      if size ≤ (avail r).length then .ok (skip size r)
      else reject ((ending r).getD .truncatedArchive) :=
  discardLoop_eq size size r hr (Nat.le_refl size)

theorem discard_iff {r t : ExpandedReader} {size : Nat} (hr : Inv r) :
    discard r size = .ok t ↔ ∃ bytes, bytes.length = size ∧ Steps r bytes t := by
  have hx : ∀ bytes, readExact r size = .ok (bytes, t) ↔ bytes.length = size ∧ Steps r bytes t :=
    fun bytes => readExact_iff hr
  simp only [← hx, readExact_eq r size hr, discard_eq r size hr]
  split_ifs with h
  · simp
  · simp [reject]

theorem keeps_nil {retain : Nat} {suffix : List UInt8} {r t : ExpandedReader} (h : Steps r [] t)
    (hs : suffix.length ≤ retain) : (takeLast retain (suffix ++ []), t) = (suffix, r) := by
  rw [List.append_nil, takeLast_of_length_le hs, h.reached]
  exact congrArg (Prod.mk suffix) (skip_zero r)

theorem logTailLoop_eq (retain fuel remaining : Nat) (suffix bytes : List UInt8)
    (r t : ExpandedReader) (hf : remaining ≤ fuel) (h : Steps r bytes t)
    (hl : bytes.length = remaining) (hs : suffix.length ≤ retain) :
    logTailLoop retain fuel remaining suffix r = .ok (takeLast retain (suffix ++ bytes), t) := by
  induction fuel generalizing remaining suffix bytes r with
  | zero =>
    obtain rfl := List.eq_nil_of_length_eq_zero (hl.trans (Nat.le_zero.mp hf))
    rw [keeps_nil h hs]
    rfl
  | succ fuel ih =>
    unfold logTailLoop
    by_cases hz : remaining = 0
    · obtain rfl := List.eq_nil_of_length_eq_zero (hl.trans hz)
      rw [if_pos hz, keeps_nil h hs]
    · rw [if_neg hz]
      have hb : 0 < readBufferBytes := by decide
      have hsplit : avail r = bytes.take (min remaining readBufferBytes) ++
          (bytes.drop (min remaining readBufferBytes) ++ avail t) := by
        rw [h.split, ← List.append_assoc, List.take_append_drop]
      have hlen : (bytes.take (min remaining readBufferBytes)).length =
          min remaining readBufferBytes := by
        rw [List.length_take]
        omega
      obtain ⟨hfirst, ha⟩ := steps_of_avail h.inv hsplit
      have hread := (readExact_iff (n := min remaining readBufferBytes) h.inv).mpr ⟨hlen, hfirst⟩
      have hrest : Steps (skip (bytes.take (min remaining readBufferBytes)).length r)
          (bytes.drop (min remaining readBufferBytes)) t := by
        refine ⟨hfirst.inv', ?_, ha⟩
        rw [h.reached, skip_add, hlen, List.length_drop]
        congr 1
        omega
      simp only [hread, ok_bind]
      refine (ih _ _ _ _ (by omega) hrest ?_ (length_takeLast_le retain _)).trans ?_
      · rw [List.length_drop, hl]
      · change Except.ok (takeLast retain (takeLast retain (suffix ++ _) ++ _), t) = _
        rw [takeLast_takeLast_append, List.append_assoc, List.take_append_drop]

theorem readLogTail_eq {r t : ExpandedReader} {bytes : List UInt8} (h : Steps r bytes t)
    (maxBytes maxLines : Nat) :
    readLogTail r bytes.length maxBytes maxLines =
      .ok (LogTail.extract (takeLast (min (maxBytes + 4) (2 ^ 64 - 1)) bytes) maxBytes maxLines,
        t) := by
  unfold readLogTail
  dsimp only
  rw [logTailLoop_eq _ _ _ [] bytes r t (Nat.le_refl _) h rfl (Nat.zero_le _), ok_bind,
    List.nil_append]
  rfl

end FaultLane.CrashRequestReading
