import Mathlib.Data.List.Basic
import Mathlib.Data.List.TakeDrop

set_option autoImplicit false

/-!
# Reading exact counts from a reader that may return short

A reader returns at most as many bytes as it is asked for, at least one while it
has any, and none at its end. `readExact` asks again until it has them all. What
it returns then depends on the bytes of the stream only, not on the pieces they
came in.
-/
namespace FaultLane.ByteReader

section Reading
variable {σ ε : Type} (read : σ → Nat → Except ε (List UInt8 × σ)) (eof : ε)

/-- One round reads at least one byte, so `n` rounds are enough for `n` bytes. -/
def readExactLoop : Nat → Nat → σ → Except ε (List UInt8 × σ)
  | _, 0, s => .ok ([], s)
  | 0, _ + 1, _ => .error eof
  | fuel + 1, n + 1, s =>
    match read s (n + 1) with
    | .error e => .error e
    | .ok ([], _) => .error eof
    | .ok (b :: bytes, t) =>
      match readExactLoop fuel (n + 1 - (b :: bytes).length) t with
      | .error e => .error e
      | .ok (more, u) => .ok (b :: bytes ++ more, u)

def readExact (n : Nat) (s : σ) : Except ε (List UInt8 × σ) := readExactLoop read eof n n s

end Reading

/-- The bytes a reader still delivers, the reader after some of them, and how the stream ends. -/
structure View {σ ε : Type} (read : σ → Nat → Except ε (List UInt8 × σ)) where
  Inv : σ → Prop
  avail : σ → List UInt8
  skip : Nat → σ → σ
  ending : σ → Option ε
  skip_inv : ∀ s k, Inv s → k ≤ (avail s).length → Inv (skip k s)
  skip_zero : ∀ s, skip 0 s = s
  skip_add : ∀ s j k, skip k (skip j s) = skip (j + k) s
  avail_skip : ∀ s k, Inv s → k ≤ (avail s).length → avail (skip k s) = (avail s).drop k
  ending_skip : ∀ s k, Inv s → k ≤ (avail s).length → ending (skip k s) = ending s
  read_more : ∀ s n, Inv s → 0 < n → avail s ≠ [] →
    ∃ k, 0 < k ∧ k ≤ n ∧ k ≤ (avail s).length ∧ read s n = .ok ((avail s).take k, skip k s)
  read_end : ∀ s n, Inv s → 0 < n → avail s = [] →
    match ending s with
    | some e => read s n = .error e
    | none => ∃ t, read s n = .ok ([], t)

section Exactness
variable {σ ε : Type} {read : σ → Nat → Except ε (List UInt8 × σ)} (V : View read) (eof : ε)

theorem readExactLoop_short (fuel n : Nat) (s : σ) (hs : V.Inv s) (hf : n ≤ fuel)
    (hn : (V.avail s).length < n) :
    readExactLoop read eof fuel n s = .error ((V.ending s).getD eof) := by
  induction fuel generalizing n s with
  | zero => omega
  | succ fuel ih =>
    obtain ⟨m, rfl⟩ : ∃ m, n = m + 1 := ⟨n - 1, by omega⟩
    by_cases ha : V.avail s = []
    · have hr := V.read_end s (m + 1) hs (Nat.succ_pos m) ha
      cases he : V.ending s with
      | none =>
        rw [he] at hr
        obtain ⟨t, ht⟩ := hr
        simp only [readExactLoop, ht, Option.getD_none]
      | some e =>
        rw [he] at hr
        simp only [readExactLoop, show read s (m + 1) = .error e from hr, Option.getD_some]
    · obtain ⟨k, hk, hkn, hka, hr⟩ := V.read_more s (m + 1) hs (Nat.succ_pos m) ha
      have hlen : ((V.avail s).take k).length = k := by simp [hka]
      obtain ⟨b, bytes, hb⟩ : ∃ b bytes, (V.avail s).take k = b :: bytes := by
        cases h : (V.avail s).take k with
        | nil => rw [h] at hlen; simp only [List.length_nil] at hlen; omega
        | cons b bytes => exact ⟨b, bytes, rfl⟩
      rw [hb] at hr hlen
      have hav := V.avail_skip s k hs hka
      have hrest := ih (m + 1 - (b :: bytes).length) (V.skip k s) (V.skip_inv s k hs hka)
        (by omega) (by rw [hav, List.length_drop]; omega)
      simp only [readExactLoop, hr, hrest, V.ending_skip s k hs hka]

theorem readExactLoop_full (fuel n : Nat) (s : σ) (hs : V.Inv s) (hf : n ≤ fuel)
    (hn : n ≤ (V.avail s).length) :
    readExactLoop read eof fuel n s = .ok ((V.avail s).take n, V.skip n s) := by
  induction fuel generalizing n s with
  | zero =>
    obtain rfl : n = 0 := by omega
    simp [readExactLoop, V.skip_zero]
  | succ fuel ih =>
    cases n with
    | zero => simp [readExactLoop, V.skip_zero]
    | succ m =>
      have ha : V.avail s ≠ [] := by
        intro h
        rw [h] at hn
        simp at hn
      obtain ⟨k, hk, hkn, hka, hr⟩ := V.read_more s (m + 1) hs (Nat.succ_pos m) ha
      have hlen : ((V.avail s).take k).length = k := by simp [hka]
      obtain ⟨b, bytes, hb⟩ : ∃ b bytes, (V.avail s).take k = b :: bytes := by
        cases h : (V.avail s).take k with
        | nil => rw [h] at hlen; simp only [List.length_nil] at hlen; omega
        | cons b bytes => exact ⟨b, bytes, rfl⟩
      have hr' := hr
      rw [hb] at hr' hlen
      have hav := V.avail_skip s k hs hka
      have hrest := ih (m + 1 - k) (V.skip k s) (V.skip_inv s k hs hka)
        (by omega) (by rw [hav, List.length_drop]; omega)
      have hsum : k + (m + 1 - k) = m + 1 := by omega
      have htake : b :: bytes ++ ((V.avail s).drop k).take (m + 1 - k) =
          (V.avail s).take (m + 1) := by
        rw [← hb, ← List.take_add, hsum]
      rw [hav, V.skip_add, hsum] at hrest
      simp only [readExactLoop, hr', hlen, hrest, htake]

/-- The exact read, as a function of the bytes that are there. -/
theorem readExact_eq (n : Nat) (s : σ) (hs : V.Inv s) :
    readExact read eof n s =
      if n ≤ (V.avail s).length then .ok ((V.avail s).take n, V.skip n s)
      else .error ((V.ending s).getD eof) := by
  split_ifs with h
  · exact readExactLoop_full V eof n n s hs (Nat.le_refl n) h
  · exact readExactLoop_short V eof n n s hs (Nat.le_refl n) (Nat.lt_of_not_le h)

end Exactness

/-- A stream that hands out its bytes in pieces of any sizes, and then ends or fails. -/
structure Source (ε : Type) where
  chunks : List (List UInt8)
  failure : Option ε

namespace Source
variable {ε : Type}

def content (s : Source ε) : List UInt8 := s.chunks.flatten

/-- One read takes what the next non-empty piece has, up to the size of the buffer. -/
def readChunks (failure : Option ε) (n : Nat) :
    List (List UInt8) → Except ε (List UInt8 × List (List UInt8))
  | [] =>
    match failure with
    | none => .ok ([], [])
    | some e => .error e
  | [] :: rest => readChunks failure n rest
  | (b :: c) :: rest =>
    if n < (b :: c).length then .ok ((b :: c).take n, (b :: c).drop n :: rest)
    else .ok (b :: c, rest)

def read (s : Source ε) (n : Nat) : Except ε (List UInt8 × Source ε) :=
  match readChunks s.failure n s.chunks with
  | .error e => .error e
  | .ok (bytes, chunks) => .ok (bytes, { s with chunks := chunks })

def skipChunks : Nat → List (List UInt8) → List (List UInt8)
  | 0, chunks => chunks
  | _ + 1, [] => []
  | k + 1, c :: rest =>
    if k + 1 < c.length then c.drop (k + 1) :: rest else skipChunks (k + 1 - c.length) rest

def skip (k : Nat) (s : Source ε) : Source ε := { s with chunks := skipChunks k s.chunks }

theorem skipChunks_zero (chunks : List (List UInt8)) : skipChunks 0 chunks = chunks := by
  cases chunks <;> rfl

theorem skipChunks_cons (k : Nat) (c : List UInt8) (rest : List (List UInt8)) (hk : 0 < k) :
    skipChunks k (c :: rest) =
      if k < c.length then c.drop k :: rest else skipChunks (k - c.length) rest := by
  obtain ⟨j, rfl⟩ : ∃ j, k = j + 1 := ⟨k - 1, by omega⟩
  rfl

theorem skipChunks_flatten (k : Nat) (chunks : List (List UInt8)) :
    (skipChunks k chunks).flatten = chunks.flatten.drop k := by
  induction chunks generalizing k with
  | nil => cases k <;> simp [skipChunks]
  | cons c rest ih =>
    cases k with
    | zero => simp [skipChunks]
    | succ k =>
      unfold skipChunks
      split_ifs with h
      · rw [List.flatten_cons, List.flatten_cons, List.drop_append_of_le_length (by omega)]
      · rw [ih, List.flatten_cons, List.drop_append, List.drop_eq_nil_of_le (by omega : c.length ≤ k + 1),
          List.nil_append]

theorem skipChunks_add (j k : Nat) (chunks : List (List UInt8)) :
    skipChunks k (skipChunks j chunks) = skipChunks (j + k) chunks := by
  induction chunks generalizing j with
  | nil => cases j <;> cases k <;> rfl
  | cons c rest ih =>
    by_cases hj : j = 0
    · simp [hj, skipChunks]
    by_cases hk : k = 0
    · simp [hk, skipChunks]
    rw [skipChunks_cons j c rest (by omega), skipChunks_cons (j + k) c rest (by omega)]
    by_cases h : j < c.length
    · rw [if_pos h, skipChunks_cons k _ rest (by omega), List.length_drop, List.drop_drop]
      by_cases h' : j + k < c.length
      · rw [if_pos (by omega), if_pos h']
      · rw [if_neg (by omega), if_neg h', show k - (c.length - j) = j + k - c.length by omega]
    · rw [if_neg h, if_neg (by omega), ih, show j - c.length + k = j + k - c.length by omega]

theorem readChunks_nil (failure : Option ε) (n : Nat) (chunks : List (List UInt8))
    (h : chunks.flatten = []) :
    readChunks failure n chunks = match failure with
      | none => .ok ([], [])
      | some e => .error e := by
  induction chunks with
  | nil => rfl
  | cons c rest ih =>
    cases c with
    | nil => exact ih h
    | cons b c => simp at h

theorem readChunks_cons (failure : Option ε) (n : Nat) (chunks : List (List UInt8))
    (hn : 0 < n) (h : chunks.flatten ≠ []) :
    ∃ k, 0 < k ∧ k ≤ n ∧ k ≤ chunks.flatten.length ∧
      readChunks failure n chunks = .ok (chunks.flatten.take k, skipChunks k chunks) := by
  induction chunks with
  | nil => simp at h
  | cons c rest ih =>
    cases c with
    | nil =>
      obtain ⟨k, hk, hkn, hkl, hr⟩ := ih h
      obtain ⟨j, rfl⟩ : ∃ j, k = j + 1 := ⟨k - 1, by omega⟩
      exact ⟨j + 1, hk, hkn, hkl, hr⟩
    | cons b c =>
      by_cases hlt : n < (b :: c).length
      · refine ⟨n, hn, Nat.le_refl _, ?_, ?_⟩
        · rw [List.flatten_cons, List.length_append]
          omega
        · rw [skipChunks_cons n _ rest hn, List.flatten_cons,
            List.take_append_of_le_length (Nat.le_of_lt hlt), readChunks, if_pos hlt, if_pos hlt]
      · refine ⟨(b :: c).length, Nat.succ_pos _, Nat.le_of_not_lt hlt, ?_, ?_⟩
        · rw [List.flatten_cons, List.length_append]
          omega
        · rw [skipChunks_cons (b :: c).length _ rest (Nat.succ_pos _), List.flatten_cons, List.take_left,
            readChunks, if_neg hlt, if_neg (Nat.lt_irrefl _), Nat.sub_self, skipChunks_zero]

end Source
end FaultLane.ByteReader
