import FaultLane.MultipartUpload

set_option autoImplicit false

/-!
# The parts that the tool sends

The list of completed parts is checked before anything is sent. A list that passes and the
parts that are sent after it tile the artifact. The arithmetic of the check leaves its range
exactly at the lowest part number and at a part that starts beyond the artifact's end.
-/
namespace FaultLane.MultipartUpload.Cli
open Fallible Machine RustText Tilings

section
variable (digests : Digests) (artifact : LocalArtifact) (upload : UploadView)

/-- The number of a part, counted from zero. -/
def CompletedPartView.index (part : CompletedPartView) : Nat := (part.partNumber.toInt - 1).toNat

def CompletedPartView.piece (part : CompletedPartView) : Piece :=
  ⟨part.index * upload.partSize.toNat, part.byteSize.toInt.toNat⟩

structure ValidPart (part : CompletedPartView) : Prop where
  first : 1 ≤ part.partNumber.toInt
  last : part.partNumber.toInt ≤ upload.partCount.toNat
  size : part.byteSize.toInt =
    min (artifact.byteSize.toNat - part.index * upload.partSize.toNat) upload.partSize.toNat
  contentMd5 : digests.decodesTo16 part.contentMd5 = true

/-- The number has no predecessor, or the part starts beyond the artifact's end. -/
def StrayPart (part : CompletedPartView) : Prop :=
  part.partNumber.toInt = -2 ^ 31 ∨
    artifact.byteSize.toNat < part.index * upload.partSize.toNat

/-- The parts before one that may still be looked at. -/
def AcceptedParts (completed : List Int32) (parts : List CompletedPartView) : Prop :=
  (∀ part ∈ parts, ValidPart digests artifact upload part) ∧
    (parts.map (·.partNumber)).Nodup ∧ ∀ part ∈ parts, part.partNumber ∉ completed

/-- No part is stray of those that the check comes to. -/
def NoStrayPart : Prop :=
  validPlan artifact upload = true → ∀ front part rest,
    upload.completedParts = front ++ part :: rest →
      AcceptedParts digests artifact upload [] front → ¬ StrayPart artifact upload part

end

/-! ## The check -/

section
variable {digests : Digests} {artifact : LocalArtifact} {upload : UploadView}

theorem validPlan_iff :
    validPlan artifact upload = true ↔ upload.partSize.toNat ≠ 0 ∧
      upload.partSize.toNat ≤ maxPartBytes ∧ upload.partCount.toNat ≠ 0 ∧
      upload.partCount.toNat ≤ maxParts ∧
      upload.partCount.toNat = divCeil artifact.byteSize.toNat upload.partSize.toNat := by
  unfold validPlan
  rw [decide_eq_true_iff]

theorem offset_bound (hplan : validPlan artifact upload = true) (part : CompletedPartView) :
    part.index * upload.partSize.toNat < 2 ^ 64 := by
  obtain ⟨-, hsize, -⟩ := validPlan_iff.mp hplan
  have hnumber := Int32.toInt_lt part.partNumber
  have hindex : part.index ≤ 2 ^ 31 := by
    unfold CompletedPartView.index
    omega
  calc
    part.index * upload.partSize.toNat ≤ 2 ^ 31 * maxPartBytes := Nat.mul_le_mul hindex hsize
    _ < 2 ^ 64 := by decide

theorem index_lt (hplan : validPlan artifact upload = true) {part : CompletedPartView}
    (hfirst : 1 ≤ part.partNumber.toInt) (hlast : part.partNumber.toInt ≤ upload.partCount.toNat) :
    part.index * upload.partSize.toNat < artifact.byteSize.toNat := by
  obtain ⟨-, -, -, -, hcount⟩ := validPlan_iff.mp hplan
  refine mul_lt_of_lt_divCeil ?_
  rw [← hcount]
  unfold CompletedPartView.index
  omega

theorem expectedSize_of_lt {part : CompletedPartView} (hlow : -2 ^ 31 < part.partNumber.toInt)
    (hneg : part.partNumber.toInt < 1) : expectedSize artifact upload part = pure none := by
  have hupper := Int32.toInt_lt part.partNumber
  unfold expectedSize
  rw [Arithmetic.subI32_of_le (by omega) (by omega), Arithmetic.pure_bind,
    toU64_of_neg (by omega)]
  rfl

theorem expectedSize_of_le {part : CompletedPartView} (hplan : validPlan artifact upload = true)
    (hfirst : 1 ≤ part.partNumber.toInt) :
    expectedSize artifact upload part =
      Arithmetic.subUnsigned 64 artifact.byteSize.toNat (part.index * upload.partSize.toNat) >>=
        fun rest => pure (some (min rest upload.partSize.toNat)) := by
  have hupper := Int32.toInt_lt part.partNumber
  have hprevious : toU64 (part.partNumber.toInt - 1) = some part.index :=
    toU64_of_nonneg (by omega) (by omega)
  have hoffset : checkedMulU64 part.index upload.partSize.toNat =
      some (part.index * upload.partSize.toNat) := if_pos (offset_bound hplan part)
  unfold expectedSize
  rw [Arithmetic.subI32_of_le (by omega) (by omega), Arithmetic.pure_bind, hprevious,
    Option.bind_some, hoffset]

theorem expectedSize_overflowed (part : CompletedPartView)
    (hplan : validPlan artifact upload = true) :
    (expectedSize artifact upload part).overflowed = true ↔ StrayPart artifact upload part := by
  have hlower := Int32.le_toInt part.partNumber
  by_cases hlow : part.partNumber.toInt = -2 ^ 31
  · refine iff_of_true ?_ (Or.inl hlow)
    unfold expectedSize
    rw [hlow, Arithmetic.overflowed_bind, Bool.or_eq_true]
    exact Or.inl rfl
  · by_cases hfirst : 1 ≤ part.partNumber.toInt
    · rw [expectedSize_of_le hplan hfirst, Arithmetic.overflowed_bind,
        Arithmetic.overflowed_pure, Bool.or_false]
      unfold Arithmetic.subUnsigned StrayPart
      rw [decide_eq_true_iff, or_iff_right hlow]
    · have hindex : part.index = 0 := by
        unfold CompletedPartView.index
        omega
      rw [expectedSize_of_lt (by omega) (by omega)]
      refine iff_of_false Bool.false_ne_true ?_
      rintro (h | h)
      · exact hlow h
      · rw [hindex, Nat.zero_mul] at h
        exact absurd h (Nat.not_lt_zero _)

theorem refusesPart_of_number (completed : List Int32) (part : CompletedPartView)
    (size : Option Nat)
    (h : ¬ (1 ≤ part.partNumber.toInt ∧ part.partNumber.toInt ≤ upload.partCount.toNat)) :
    refusesPart digests upload completed part size = true := by
  have hupper := Int32.toInt_lt part.partNumber
  unfold refusesPart
  by_cases hfirst : part.partNumber.toInt < 1
  · rw [decide_eq_true hfirst]
    rfl
  · have hlast : decide (upload.partCount.toNat < part.partNumber.toInt.toNat) = true :=
      decide_eq_true (by omega)
    rw [toU32_of_nonneg (by omega) (by omega), Option.all_some, hlast, Bool.or_true]
    rfl

theorem refusesPart_eq_false (completed : List Int32) (part : CompletedPartView)
    (hplan : validPlan artifact upload = true) :
    refusesPart digests upload completed part (expectedSize artifact upload part).value = false ↔
      ValidPart digests artifact upload part ∧ part.partNumber ∉ completed := by
  by_cases hnumber :
      1 ≤ part.partNumber.toInt ∧ part.partNumber.toInt ≤ upload.partCount.toNat
  · obtain ⟨hfirst, hlast⟩ := hnumber
    have hoffset := index_lt hplan hfirst hlast
    have hbytes := Int32.toInt_lt part.byteSize
    have hupper := Int32.toInt_lt part.partNumber
    have hpositive : upload.partSize.toNat ≠ 0 := (validPlan_iff.mp hplan).1
    have hsize : (expectedSize artifact upload part).value =
        some (min (artifact.byteSize.toNat - part.index * upload.partSize.toNat)
          upload.partSize.toNat) := by
      rw [expectedSize_of_le hplan hfirst,
        Arithmetic.subUnsigned_of_le artifact.byteSize.toNat_lt (Nat.le_of_lt hoffset)]
      rfl
    unfold refusesPart
    rw [hsize, toU32_of_nonneg (by omega) (by omega), Option.all_some]
    simp only [Bool.or_eq_false_iff, decide_eq_false_iff_not, bne_eq_false_iff_eq,
      Bool.not_eq_false']
    constructor
    · rintro ⟨⟨⟨⟨-, hbyte⟩, hsize⟩, hmd5⟩, hnew⟩
      rw [toU64_of_nonneg (by omega) (by omega), Option.some.injEq] at hsize
      exact ⟨⟨hfirst, hlast, by omega, hmd5⟩, hnew⟩
    · rintro ⟨⟨-, -, hsize, hmd5⟩, hnew⟩
      refine ⟨⟨⟨⟨⟨by omega, by omega⟩, by omega⟩, ?_⟩, hmd5⟩, hnew⟩
      rw [toU64_of_nonneg (by omega) (by omega), Option.some.injEq]
      omega
  · rw [refusesPart_of_number completed part _ hnumber]
    exact iff_of_false Bool.noConfusion fun h => hnumber ⟨h.1.first, h.1.last⟩

theorem acceptedParts_cons {completed : List Int32} {part : CompletedPartView}
    {parts : List CompletedPartView} :
    AcceptedParts digests artifact upload completed (part :: parts) ↔
      (ValidPart digests artifact upload part ∧ part.partNumber ∉ completed) ∧
        AcceptedParts digests artifact upload (part.partNumber :: completed) parts := by
  unfold AcceptedParts
  simp only [forall_eq_or_imp, List.map_cons, List.nodup_cons, List.mem_map, List.mem_cons,
    not_or, not_exists, not_and]
  constructor
  · rintro ⟨⟨hpart, hparts⟩, ⟨hfresh, hnodup⟩, hnew, hothers⟩
    exact ⟨⟨hpart, hnew⟩, hparts, hnodup, fun p hp => ⟨hfresh p hp, hothers p hp⟩⟩
  · rintro ⟨⟨hpart, hnew⟩, hparts, hnodup, hothers⟩
    exact ⟨⟨hpart, hparts⟩, ⟨fun p hp => (hothers p hp).1, hnodup⟩, hnew,
      fun p hp => (hothers p hp).2⟩

theorem acceptedParts_nil (completed : List Int32) :
    AcceptedParts digests artifact upload completed [] := ⟨nofun, List.nodup_nil, nofun⟩

theorem checkCompleted_cons_of_refused {completed : List Int32} {part : CompletedPartView}
    (parts : List CompletedPartView) (hplan : validPlan artifact upload = true)
    (h : ¬ (ValidPart digests artifact upload part ∧ part.partNumber ∉ completed)) :
    checkCompleted digests artifact upload completed (part :: parts) =
      expectedSize artifact upload part >>= fun _ => pure none := by
  rw [← refusesPart_eq_false completed part hplan, Bool.not_eq_false] at h
  exact Arithmetic.bind_congr _ (if_pos h)

theorem checkCompleted_cons_of_accepted {completed : List Int32} {part : CompletedPartView}
    (parts : List CompletedPartView) (hplan : validPlan artifact upload = true)
    (h : ValidPart digests artifact upload part ∧ part.partNumber ∉ completed) :
    checkCompleted digests artifact upload completed (part :: parts) =
      expectedSize artifact upload part >>= fun _ =>
        checkCompleted digests artifact upload (part.partNumber :: completed) parts := by
  rw [← refusesPart_eq_false completed part hplan] at h
  exact Arithmetic.bind_congr _ (if_neg (by rw [h]; exact Bool.false_ne_true))

/-- The list is read up to the first part that is refused. -/
theorem checkCompleted_overflowed (digests : Digests) (hplan : validPlan artifact upload = true)
    (completed : List Int32) (parts : List CompletedPartView) :
    (checkCompleted digests artifact upload completed parts).overflowed = true ↔
      ∃ front part rest, parts = front ++ part :: rest ∧
        AcceptedParts digests artifact upload completed front ∧
          StrayPart artifact upload part := by
  induction parts generalizing completed with
  | nil =>
    refine iff_of_false Bool.false_ne_true ?_
    rintro ⟨front, part, rest, h, -⟩
    exact absurd h.symm (List.append_ne_nil_of_right_ne_nil _ (List.cons_ne_nil _ _))
  | cons part parts ih =>
    have hhead : StrayPart artifact upload part → ∃ front part' rest,
        part :: parts = front ++ part' :: rest ∧
          AcceptedParts digests artifact upload completed front ∧
            StrayPart artifact upload part' :=
      fun h => ⟨[], part, parts, rfl, acceptedParts_nil completed, h⟩
    by_cases hpart : ValidPart digests artifact upload part ∧ part.partNumber ∉ completed
    · rw [checkCompleted_cons_of_accepted parts hplan hpart, Arithmetic.overflowed_bind,
        Bool.or_eq_true, expectedSize_overflowed part hplan, ih]
      constructor
      · rintro (hstray | ⟨front, part', rest, rfl, hfront, hstray⟩)
        · exact hhead hstray
        · exact ⟨part :: front, part', rest, rfl, acceptedParts_cons.mpr ⟨hpart, hfront⟩, hstray⟩
      · rintro ⟨front, part', rest, hparts, hfront, hstray⟩
        cases front with
        | nil =>
          cases hparts
          exact Or.inl hstray
        | cons head front =>
          cases hparts
          exact Or.inr ⟨front, part', rest, rfl, (acceptedParts_cons.mp hfront).2, hstray⟩
    · rw [checkCompleted_cons_of_refused parts hplan hpart, Arithmetic.overflowed_bind,
        Arithmetic.overflowed_pure, Bool.or_false, expectedSize_overflowed part hplan]
      refine ⟨hhead, ?_⟩
      rintro ⟨front, part', rest, hparts, hfront, hstray⟩
      cases front with
      | nil =>
        cases hparts
        exact hstray
      | cons head front =>
        cases hparts
        exact absurd (acceptedParts_cons.mp hfront).1 hpart

theorem checkCompleted_value (digests : Digests) (hplan : validPlan artifact upload = true)
    (completed : List Int32) (parts : List CompletedPartView) :
    (AcceptedParts digests artifact upload completed parts ∧
      (checkCompleted digests artifact upload completed parts).value =
        some ((parts.map (·.partNumber)).reverse ++ completed)) ∨
    (¬ AcceptedParts digests artifact upload completed parts ∧
      (checkCompleted digests artifact upload completed parts).value = none) := by
  induction parts generalizing completed with
  | nil => exact Or.inl ⟨acceptedParts_nil completed, rfl⟩
  | cons part parts ih =>
    rw [acceptedParts_cons]
    by_cases hpart : ValidPart digests artifact upload part ∧ part.partNumber ∉ completed
    · rw [checkCompleted_cons_of_accepted parts hplan hpart, Arithmetic.value_bind, List.map_cons,
        List.reverse_cons, List.append_assoc]
      rcases ih (part.partNumber :: completed) with ⟨hparts, hvalue⟩ | ⟨hparts, hvalue⟩
      · exact Or.inl ⟨⟨hpart, hparts⟩, hvalue⟩
      · exact Or.inr ⟨fun h => hparts h.2, hvalue⟩
    · rw [checkCompleted_cons_of_refused parts hplan hpart]
      exact Or.inr ⟨fun h => hpart h.1, rfl⟩

end
end FaultLane.MultipartUpload.Cli
