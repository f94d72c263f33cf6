import FaultLane.JobQueue
import Mathlib.Data.List.Chain
import Mathlib.Data.List.Dedup
import Mathlib.Data.List.Nodup
import Mathlib.Data.List.Sort
import Mathlib.Data.Prod.Lex
import Mathlib.Order.MinMax

set_option autoImplicit false

/-!
# The chronology of an issue's releases

What the worker and the issue requests each read off the build timestamps of the releases of
an issue, and that the two agree.
-/
namespace FaultLane.IssueTransitions
open JobQueue

abbrev Timestamp := Int

section
variable {α : Type}

/-- `windows(2).any(…)`. -/
def anyAdjacent (p : α → α → Bool) : List α → Bool
  | a :: b :: rest => p a b || anyAdjacent p (b :: rest)
  | _ => false

theorem anyAdjacent_eq_false {p : α → α → Bool} {l : List α} :
    anyAdjacent p l = false ↔ l.IsChain fun a b => p a b = false := by
  induction l using anyAdjacent.induct with
  | case1 a b rest ih => rw [anyAdjacent, Bool.or_eq_false_iff, ih, List.isChain_cons_cons]
  | case2 l h =>
    match l, h with
    | [], _ => exact iff_of_true rfl .nil
    | [a], _ => exact iff_of_true rfl (.singleton a)
    | a :: b :: rest, h => exact absurd rfl (h a b rest)

/-- In a list sorted by a key, no two neighbours share it when no two elements do. -/
theorem anyAdjacent_key {β : Type} [LinearOrder β] {key : α → β} {l : List α}
    (hsorted : l.Pairwise fun a b => key a ≤ key b) :
    anyAdjacent (fun a b => key a = key b) l = false ↔ (l.map key).Nodup := by
  rw [anyAdjacent_eq_false]
  constructor
  · intro h
    have hlt : (l.map key).IsChain (· < ·) := by
      refine (List.isChain_map key).mpr (List.isChain_iff_getElem.mpr fun i hi => ?_)
      have hle := List.isChain_iff_getElem.mp hsorted.isChain i hi
      exact lt_of_le_of_ne hle (of_decide_eq_false (List.isChain_iff_getElem.mp h i hi))
    exact hlt.pairwise.imp ne_of_lt
  · intro h
    have hne : l.Pairwise fun a b => key a ≠ key b := List.pairwise_map.mp h
    exact (hne.imp fun hab => decide_eq_false hab).isChain

/-- The last element of a list sorted by a key has the greatest. -/
theorem getLast?_key {β : Type} [LinearOrder β] {key : α → β} {l : List α}
    (hsorted : l.Pairwise fun a b => key a ≤ key b) : l.getLast?.map key = (l.map key).max? := by
  cases h : l.getLast? with
  | none =>
    obtain rfl := List.getLast?_eq_none_iff.mp h
    rfl
  | some a =>
    obtain ⟨init, rfl⟩ := List.getLast?_eq_some_iff.mp h
    refine (List.max?_eq_some_iff.mpr ⟨?_, fun b hb => ?_⟩).symm
    · exact List.mem_map_of_mem (List.mem_append_right init (List.mem_singleton_self a))
    · obtain ⟨c, hc, rfl⟩ := List.mem_map.mp hb
      rcases List.mem_append.mp hc with hc | hc
      · exact (List.pairwise_append.mp hsorted).2.2 c hc a (List.mem_singleton_self a)
      · rw [List.mem_singleton.mp hc]

theorem max?_perm {β : Type} [LinearOrder β] {l l' : List β} (h : l.Perm l') :
    l.max? = l'.max? := by
  ext b
  simp only [List.max?_eq_some_iff, h.mem_iff]

end

/-! ## The worker -/

structure ReleaseEvidence where
  id : Uuid
  buildTimestamp : Option Timestamp
  deriving DecidableEq, Repr

structure ReleaseChronology where
  first : Option Uuid
  last : Option Uuid
  lastTimestamp : Option Timestamp
  releaseCount : Nat
  valid : Bool
  deriving DecidableEq, Repr

/-- The releases that have a timestamp, by timestamp and id. -/
def ordered (evidence : List ReleaseEvidence) : List (Timestamp ×ₗ Uuid) :=
  (evidence.filterMap fun release =>
    release.buildTimestamp.map fun timestamp => toLex (timestamp, release.id)).insertionSort (· ≤ ·)

def releaseChronology (evidence : List ReleaseEvidence) : ReleaseChronology :=
  let ordered := ordered evidence
  if ordered ≠ [] ∧ ordered.length = evidence.length ∧
      anyAdjacent (fun a b => (ofLex a).1 = (ofLex b).1) ordered = false then
    ⟨ordered.head?.map fun release => (ofLex release).2,
      ordered.getLast?.map fun release => (ofLex release).2,
      ordered.getLast?.map fun release => (ofLex release).1, ordered.length, true⟩
  else ⟨none, none, none, evidence.length, false⟩

/-! ## The issue requests -/

inductive RegressionState where
  | new
  | ongoing
  | resolved
  | regressed
  | unknown
  deriving DecidableEq, Repr

/-- What `count(r.build_timestamp)` counts. -/
def timestamps (evidence : List ReleaseEvidence) : List Timestamp :=
  evidence.filterMap ReleaseEvidence.buildTimestamp

def retainedRegressionState (evidence : List ReleaseEvidence) : RegressionState :=
  let releases := evidence.length
  let timestamped := (timestamps evidence).length
  let distinct := (timestamps evidence).dedup.length
  if releases = 0 ∨ timestamped ≠ releases ∨ distinct ≠ releases then .unknown
  else if releases = 1 then .new
  else .ongoing

def hasProvablyLaterRelease (evidence : List ReleaseEvidence)
    (resolutionTimestamp : Timestamp) : Bool :=
  let releases := evidence.length
  let timestamped := (timestamps evidence).length
  let distinct := (timestamps evidence).dedup.length
  let latest := (timestamps evidence).max?
  0 < releases ∧ releases = timestamped ∧ releases = distinct ∧
    latest.any fun timestamp => resolutionTimestamp < timestamp

/-! ## Agreement -/

/-- The releases follow one another in a provable order. -/
def Provable (evidence : List ReleaseEvidence) : Prop :=
  evidence ≠ [] ∧ (timestamps evidence).length = evidence.length ∧ (timestamps evidence).Nodup

section
variable {evidence : List ReleaseEvidence}

theorem length_dedup_eq {l : List Timestamp} : l.dedup.length = l.length ↔ l.Nodup := by
  constructor
  · intro h
    exact List.dedup_eq_self.mp ((List.dedup_sublist l).eq_of_length h)
  · intro h
    rw [h.dedup]

theorem pairwise_ordered (evidence : List ReleaseEvidence) :
    (ordered evidence).Pairwise fun a b => (ofLex a).1 ≤ (ofLex b).1 := by
  have hsorted : (ordered evidence).Pairwise (· ≤ ·) := List.pairwise_insertionSort _ _
  exact hsorted.imp fun hab => Prod.Lex.monotone_fst_ofLex hab

theorem ordered_perm (evidence : List ReleaseEvidence) :
    ((ordered evidence).map fun release => (ofLex release).1).Perm (timestamps evidence) := by
  have hmap : (evidence.filterMap fun release => release.buildTimestamp.map fun timestamp =>
      toLex (timestamp, release.id)).map (fun release => (ofLex release).1) =
      timestamps evidence := by
    unfold timestamps
    rw [List.map_filterMap]
    refine List.filterMap_congr fun release _ => ?_
    cases release.buildTimestamp <;> rfl
  exact hmap ▸ (List.perm_insertionSort _ _).map _

theorem length_ordered (evidence : List ReleaseEvidence) :
    (ordered evidence).length = (timestamps evidence).length := by
  rw [← (ordered_perm evidence).length_eq, List.length_map]

theorem releaseChronology_eq (h : Provable evidence) :
    releaseChronology evidence =
      ⟨(ordered evidence).head?.map fun release => (ofLex release).2,
        (ordered evidence).getLast?.map fun release => (ofLex release).2,
        (timestamps evidence).max?, evidence.length, true⟩ := by
  obtain ⟨hne, hlength, hnodup⟩ := h
  have hlength' : (ordered evidence).length = evidence.length :=
    (length_ordered evidence).trans hlength
  have hordered : ordered evidence ≠ [] := by
    intro hnil
    rw [hnil] at hlength'
    exact hne (List.eq_nil_of_length_eq_zero hlength'.symm)
  have hadjacent := (anyAdjacent_key (pairwise_ordered evidence)).mpr
    ((ordered_perm evidence).nodup_iff.mpr hnodup)
  have hlast := getLast?_key (pairwise_ordered evidence)
  have hmax := max?_perm (ordered_perm evidence)
  unfold releaseChronology
  dsimp only
  rw [if_pos ⟨hordered, hlength', hadjacent⟩, hlength', hlast, hmax]

theorem releaseChronology_of_not_provable (h : ¬ Provable evidence) :
    releaseChronology evidence = ⟨none, none, none, evidence.length, false⟩ := by
  unfold releaseChronology
  dsimp only
  refine if_neg fun ⟨hne, hlength, hadjacent⟩ => h ⟨?_, ?_, ?_⟩
  · rintro rfl
    exact hne rfl
  · exact (length_ordered evidence).symm.trans hlength
  · have hnodup := (anyAdjacent_key (pairwise_ordered evidence)).mp hadjacent
    exact (ordered_perm evidence).nodup_iff.mp hnodup

theorem retainedRegressionState_eq (evidence : List ReleaseEvidence) :
    retainedRegressionState evidence =
      if ¬ (releaseChronology evidence).valid then .unknown
      else if (releaseChronology evidence).releaseCount = 1 then .new
      else .ongoing := by
  unfold retainedRegressionState
  dsimp only
  by_cases h : Provable evidence
  · obtain ⟨hne, hlength, hnodup⟩ := h
    rw [releaseChronology_eq ⟨hne, hlength, hnodup⟩, hnodup.dedup, if_neg (not_not.mpr rfl)]
    refine if_neg ?_
    rintro (hnil | hother | hother)
    · exact hne (List.eq_nil_of_length_eq_zero hnil)
    · exact hother hlength
    · exact hother hlength
  · rw [releaseChronology_of_not_provable h, if_pos Bool.false_ne_true]
    refine if_pos ?_
    by_contra hnot
    obtain ⟨hne, hlength, hdistinct⟩ : evidence.length ≠ 0 ∧
        (timestamps evidence).length = evidence.length ∧
        (timestamps evidence).dedup.length = evidence.length := by
      simpa only [not_or, ne_eq, not_not] using hnot
    refine h ⟨fun hnil => hne (congrArg List.length hnil), hlength, ?_⟩
    exact length_dedup_eq.mp (hdistinct.trans hlength.symm)

theorem hasProvablyLaterRelease_iff {resolutionTimestamp : Timestamp} :
    hasProvablyLaterRelease evidence resolutionTimestamp = true ↔ Provable evidence ∧
      ∃ latest ∈ (timestamps evidence).max?, resolutionTimestamp < latest := by
  unfold hasProvablyLaterRelease
  dsimp only
  rw [decide_eq_true_eq]
  constructor
  · rintro ⟨hpos, hlength, hdistinct, hlater⟩
    obtain ⟨latest, hlatest, hlt⟩ := Option.any_eq_true _ _ |>.mp hlater
    refine ⟨⟨List.ne_nil_of_length_pos hpos, hlength.symm, ?_⟩, latest, hlatest,
      of_decide_eq_true hlt⟩
    exact length_dedup_eq.mp (hdistinct.symm.trans hlength)
  · rintro ⟨⟨hne, hlength, hnodup⟩, latest, hlatest, hlt⟩
    refine ⟨List.length_pos_iff.mpr hne, hlength.symm, ?_, ?_⟩
    · exact hlength.symm.trans (length_dedup_eq.mpr hnodup).symm
    · exact Option.any_eq_true _ _ |>.mpr ⟨latest, hlatest, decide_eq_true hlt⟩

/-- Releases of distinct ids are in order when each has a timestamp of its own. -/
theorem provable_iff (hids : (evidence.map ReleaseEvidence.id).Nodup) :
    Provable evidence ↔ evidence ≠ [] ∧ (∀ r ∈ evidence, r.buildTimestamp ≠ none) ∧
      ∀ a ∈ evidence, ∀ b ∈ evidence, a.buildTimestamp = b.buildTimestamp → a.id = b.id := by
  have hlength : (timestamps evidence).length = evidence.length ↔
      ∀ r ∈ evidence, r.buildTimestamp ≠ none := by
    rw [timestamps, List.length_filterMap_eq_countP, List.countP_eq_length]
    refine forall₂_congr fun r _ => ?_
    rw [Option.isSome_iff_ne_none]
  refine and_congr_right fun _ => ?_
  rw [hlength]
  refine and_congr_right fun hall => ?_
  have hmap : (timestamps evidence).map some = evidence.map ReleaseEvidence.buildTimestamp := by
    rw [timestamps, List.map_filterMap, ← List.filterMap_eq_map]
    refine List.filterMap_congr fun r hr => ?_
    obtain ⟨t, ht⟩ := Option.ne_none_iff_exists'.mp (hall r hr)
    rw [Function.comp_apply, ht]
    rfl
  rw [← List.nodup_map_iff (Option.some_injective _), hmap,
    List.nodup_map_iff_inj_on (List.Nodup.of_map _ hids)]
  refine forall₂_congr fun a ha => forall₂_congr fun b hb => imp_congr_right fun _ => ?_
  exact ⟨congrArg ReleaseEvidence.id, List.inj_on_of_nodup_map hids ha hb⟩

end
end FaultLane.IssueTransitions
