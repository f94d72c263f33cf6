import FaultLane.CrashRequestReading

set_option autoImplicit false

/-!
# The window that a log tail is read from

Four bytes more than the limit are enough context: the tail of the last bytes of a log is the
tail of the log.
-/
namespace FaultLane.LogTail
open RustText BoundedHistory Fallible CrashRequest CrashRequestReading

variable {input : List UInt8} {start candidate d maxBytes maxLines : Nat}

/-! ## The boundary -/

/-- The width of the sequence that a byte leads, or zero. -/
def leadWidth (lead : Nat) : Nat :=
  if 0xC2 ≤ lead ∧ lead ≤ 0xDF then 2
  else if 0xE0 ≤ lead ∧ lead ≤ 0xEF then 3
  else if 0xF0 ≤ lead ∧ lead ≤ 0xF4 then 4
  else 0

/-- Where the sequence of a candidate ends, when it is whole and reaches over `start`. -/
def stopAt (input : List UInt8) (start candidate : Nat) : Option Nat :=
  let width := leadWidth (input.getD candidate 0).toNat
  if width ≠ 0 ∧ start < candidate + width ∧ candidate + width ≤ input.length ∧
      (fromUtf8 ((input.drop candidate).take width)).isSome then some (candidate + width)
  else none

theorem nextUtf8Boundary_eq (input : List UInt8) (start : Nat) :
    nextUtf8Boundary input start =
      if start = 0 ∨ input.length ≤ start ∨ !isContinuation (input.getD start 0) then start
      else ((List.range' (start - 3) (start - (start - 3))).filterMap
        (stopAt input start)).headD start := rfl

theorem lt_of_stopAt {stop : Nat} (h : stopAt input start candidate = some stop) :
    start < stop ∧ stop ≤ input.length := by
  unfold stopAt at h
  dsimp only at h
  split_ifs at h with hstop
  cases h
  exact ⟨hstop.2.1, hstop.2.2.1⟩

theorem le_nextUtf8Boundary (input : List UInt8) (start : Nat) :
    start ≤ nextUtf8Boundary input start := by
  rw [nextUtf8Boundary_eq]
  split_ifs
  · exact Nat.le_refl start
  · cases hends : (List.range' (start - 3) (start - (start - 3))).filterMap
        (stopAt input start) with
    | nil => exact Nat.le_refl start
    | cons stop rest =>
      have hmem : stop ∈ (List.range' (start - 3) (start - (start - 3))).filterMap
          (stopAt input start) := hends ▸ List.mem_cons_self
      obtain ⟨candidate, -, hstop⟩ := List.mem_filterMap.mp hmem
      exact (lt_of_stopAt hstop).1.le

theorem getD_drop (input : List UInt8) (d i : Nat) :
    (input.drop d).getD i 0 = input.getD (i + d) 0 := by
  rw [List.getD_eq_getElem?_getD, List.getD_eq_getElem?_getD, List.getElem?_drop, Nat.add_comm]

theorem stopAt_drop (hd : d ≤ input.length) :
    stopAt input (start + d) (candidate + d) =
      (stopAt (input.drop d) start candidate).map (· + d) := by
  have hdrop : (input.drop d).drop candidate = input.drop (candidate + d) := by
    rw [List.drop_drop, Nat.add_comm]
  unfold stopAt
  dsimp only
  rw [getD_drop, hdrop, List.length_drop]
  generalize leadWidth (input.getD (candidate + d) 0).toNat = width
  generalize (fromUtf8 ((input.drop (candidate + d)).take width)).isSome = whole
  have hcond : (width ≠ 0 ∧ start + d < candidate + d + width ∧
      candidate + d + width ≤ input.length ∧ whole = true) ↔
      width ≠ 0 ∧ start < candidate + width ∧ candidate + width ≤ input.length - d ∧
        whole = true :=
    and_congr_right fun _ => and_congr (by omega) (and_congr (by omega) Iff.rfl)
  by_cases h : width ≠ 0 ∧ start < candidate + width ∧
      candidate + width ≤ input.length - d ∧ whole = true
  · rw [if_pos h, if_pos (hcond.mpr h), Option.map_some]
    congr 1
    omega
  · rw [if_neg h, if_neg fun h' => h (hcond.mp h')]
    rfl

/-- Three bytes of look-back stay inside the window. -/
theorem nextUtf8Boundary_drop (hd : d ≤ input.length) (hstart : 3 < start) :
    nextUtf8Boundary input (start + d) = nextUtf8Boundary (input.drop d) start + d := by
  rw [nextUtf8Boundary_eq, nextUtf8Boundary_eq, getD_drop, List.length_drop]
  have hrange : List.range' (start + d - 3) (start + d - (start + d - 3)) =
      (List.range' (start - 3) (start - (start - 3))).map (d + ·) := by
    rw [List.map_add_range']
    congr 1 <;> omega
  by_cases h : start = 0 ∨ input.length - d ≤ start ∨
      (!isContinuation (input.getD (start + d) 0)) = true
  · rw [if_pos h, if_pos (h.imp (by omega) (Or.imp_left (by omega)))]
  · rw [if_neg h, if_neg fun h' => h (h'.imp (by omega) (Or.imp_left (by omega))), hrange,
      List.filterMap_map]
    have hstop : (stopAt input (start + d) ∘ fun candidate => d + candidate) =
        fun candidate => (stopAt (input.drop d) start candidate).map (· + d) := by
      funext candidate
      rw [Function.comp_apply, Nat.add_comm d candidate, stopAt_drop hd]
    rw [hstop, ← List.map_filterMap]
    cases (List.range' (start - 3) (start - (start - 3))).filterMap
      (stopAt (input.drop d) start) <;> rfl

/-! ## The tail -/

theorem extract_drop (h : maxBytes + 4 + d ≤ input.length) :
    extract (input.drop d) maxBytes maxLines = extract input maxBytes maxLines := by
  have hlength : (input.drop d).length = input.length - d := List.length_drop
  have hne : input.drop d ≠ [] := List.ne_nil_of_length_pos (by omega)
  have hne' : input ≠ [] := List.ne_nil_of_length_pos (by omega)
  have hstart : nextUtf8Boundary input (input.length - maxBytes) =
      nextUtf8Boundary (input.drop d) ((input.drop d).length - maxBytes) + d := by
    rw [← nextUtf8Boundary_drop (by omega) (by omega)]
    congr 1
    omega
  have hpos := le_nextUtf8Boundary (input.drop d) ((input.drop d).length - maxBytes)
  unfold extract
  rw [if_neg hne, if_neg hne']
  by_cases hzero : maxBytes = 0 ∨ maxLines = 0
  · rw [if_pos hzero, if_pos hzero]
  · rw [if_neg hzero, if_neg hzero]
    dsimp only
    rw [hstart]
    generalize nextUtf8Boundary (input.drop d) ((input.drop d).length - maxBytes) = s at hpos ⊢
    have hsource : (input.drop d).drop s = input.drop (s + d) := by
      rw [List.drop_drop, Nat.add_comm]
    have hprevious : (input.drop d)[s - 1]? = input[s + d - 1]? := by
      rw [List.getElem?_drop]
      congr 1
      omega
    have hcut : (0 < s) = (0 < s + d) := propext (by omega)
    simp only [hsource, hprevious, hcut]

theorem extract_takeLast {n : Nat} (h : min (maxBytes + 4) input.length ≤ n) :
    extract (takeLast n input) maxBytes maxLines = extract input maxBytes maxLines := by
  unfold takeLast
  by_cases hn : input.length ≤ n
  · rw [Nat.sub_eq_zero_of_le hn, List.drop_zero]
  · exact extract_drop (by omega)

/-- The tail of a log that is read as a stream is the tail of the log. -/
theorem readLogTail_eq_extract {r t : ExpandedReader} {content : List UInt8}
    (h : Steps r content t) (size : UInt64) (hsize : content.length = size.toNat)
    (maxBytes maxLines : Nat) :
    readLogTail r size.toNat maxBytes maxLines =
      .ok (extract content maxBytes maxLines, t) := by
  rw [← hsize, readLogTail_eq h, extract_takeLast]
  have := size.toNat_lt
  omega

/-- Two pieces of a log whose window begins inside a character. -/
def splitLog : ExpandedReader :=
  ⟨⟨[[0x61, 0x0A, 0xE2, 0x82], [0xAC, 0x62, 0x0A, 0x63]], none⟩, 8, 0⟩

theorem readLogTail_splitLog :
    readLogTail splitLog 8 4 10 =
      .ok (extract [0x61, 0x0A, 0xE2, 0x82, 0xAC, 0x62, 0x0A, 0x63] 4 10, skip 8 splitLog) := by
  have havail : avail splitLog = [0x61, 0x0A, 0xE2, 0x82, 0xAC, 0x62, 0x0A, 0x63] ++ [] := rfl
  have hsteps := (steps_of_avail (Nat.zero_le _) havail).1
  exact readLogTail_eq_extract hsteps 8 rfl 4 10

end FaultLane.LogTail
