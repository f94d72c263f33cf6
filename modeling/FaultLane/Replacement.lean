import Mathlib.Data.List.Infix
import Mathlib.Tactic.SplitIfs

set_option autoImplicit false

/-!
# Replacing a pattern by a marker

Matches are taken from left to right and do not overlap. A word that fits neither edge of
the marker cannot come into being where a marker is put.
-/
namespace FaultLane.Replacement
variable {α : Type}

section Marker

/-- The word contains the marker, or it fits one of the marker's edges. -/
def Straddles (marker word : List α) : Prop :=
  marker <:+: word ∨ (∃ a b, word = a ++ b ∧ b ≠ [] ∧ b <+: marker) ∨
    ∃ a b, word = a ++ b ∧ a ≠ [] ∧ a <:+ marker

/-- A word that does not straddle the marker lies within a segment or within a marker. -/
theorem infix_of_intercalate {marker word : List α} (hword : ¬ Straddles marker word)
    (hmarker : ¬ word <:+: marker) {segs : List (List α)} (h : word <:+: marker.intercalate segs) :
    ∃ seg ∈ segs, word <:+: seg := by
  have hne : word ≠ [] := by
    rintro rfl
    exact hmarker List.nil_infix
  induction segs with
  | nil => exact absurd (List.infix_nil.mp (by simpa using h)) hne
  | cons seg segs ih =>
    cases segs with
    | nil => exact ⟨seg, List.mem_cons_self, by simpa using h⟩
    | cons next segs =>
      rw [List.intercalate_cons_cons, List.append_assoc, List.infix_append_iff_ne_nil] at h
      rcases h with hseg | hrest | ⟨a, b, ha, hb, hab, -, hstart⟩
      · exact ⟨seg, List.mem_cons_self, hseg⟩
      · rcases List.infix_append_iff_ne_nil.mp hrest with hin | hlater | ⟨a, b, ha, hb, hab, hs, -⟩
        · exact absurd hin hmarker
        · obtain ⟨found, hfound, hinfix⟩ := ih hlater
          exact ⟨found, List.mem_cons_of_mem _ hfound, hinfix⟩
        · exact absurd (.inr (.inr ⟨a, b, hab, ha, hs⟩)) hword
      · rcases List.prefix_or_prefix_of_prefix hstart (List.prefix_append marker _) with hb' | hm
        · exact absurd (.inr (.inl ⟨a, b, hab, hb, hb'⟩)) hword
        · refine absurd (.inl ?_) hword
          rw [hab]
          exact hm.isInfix.trans (List.suffix_append a b).isInfix

/-- A word without `a` that fits around `a` lies on one side of it. -/
theorem infix_of_fresh {word s t : List α} {a : α} (ha : a ∉ word) (h : word <:+: s ++ a :: t) :
    word <:+: s ∨ word <:+: t := by
  rcases List.infix_append_iff_ne_nil.mp h with hs | ht | ⟨b, c, -, hc, rfl, -, hstart⟩
  · exact .inl hs
  · rcases List.infix_cons_iff.mp ht with hstart | hinfix
    · cases word with
      | nil => exact .inl List.nil_infix
      | cons b word => exact absurd (by simp [(List.cons_prefix_cons.mp hstart).1]) ha
    · exact .inr hinfix
  · cases c with
    | nil => exact absurd rfl hc
    | cons d c => exact absurd (by simp [(List.cons_prefix_cons.mp hstart).1]) ha

/-- What stands before and after the marker where a straddling word comes into being. -/
theorem around_of_straddles {marker word : List α} (hmarker : marker ≠ [])
    (h : Straddles marker word) : ∃ b c, (b.length < word.length ∧ b ⊆ word) ∧
      (c.length < word.length ∧ c ⊆ word) ∧ word <:+: b ++ (marker ++ c) := by
  have hlength := List.length_pos_iff.mpr hmarker
  rcases h with ⟨b, c, rfl⟩ | ⟨b, e, rfl, hne, hstart⟩ | ⟨e, c, rfl, hne, hsuffix⟩
  · refine ⟨b, c, ⟨?_, fun x hx => ?_⟩, ⟨?_, fun x hx => ?_⟩, by simp⟩
    · simp only [List.length_append]
      omega
    · simp [hx]
    · simp only [List.length_append]
      omega
    · simp [hx]
  · have hpos := List.length_pos_iff.mpr hne
    refine ⟨b, [], ⟨?_, List.subset_append_left b e⟩, ⟨?_, List.nil_subset _⟩, ?_⟩
    · simp only [List.length_append]
      omega
    · simp only [List.length_append, List.length_nil]
      omega
    · rw [List.append_nil]
      exact ((List.prefix_append_right_inj b).mpr hstart).isInfix
  · have hpos := List.length_pos_iff.mpr hne
    refine ⟨[], c, ⟨?_, List.nil_subset _⟩, ⟨?_, List.subset_append_right e c⟩, ?_⟩
    · simp only [List.length_append, List.length_nil]
      omega
    · simp only [List.length_append]
      omega
    · obtain ⟨d, rfl⟩ := hsuffix
      exact ⟨d, [], by simp⟩

end Marker

variable [DecidableEq α]

/-- `skip` counts the elements of the match that was taken last. -/
def replaceFrom (pattern marker : List α) : List α → Nat → List α
  | [], _ => []
  | _ :: s, skip + 1 => replaceFrom pattern marker s skip
  | a :: s, 0 =>
    if pattern <+: a :: s then marker ++ replaceFrom pattern marker s (pattern.length - 1)
    else a :: replaceFrom pattern marker s 0

def replace (pattern marker s : List α) : List α := replaceFrom pattern marker s 0

/-- The parts of a text between the matches of a pattern. -/
def segmentsFrom (pattern : List α) : List α → Nat → List (List α)
  | [], _ => [[]]
  | _ :: s, skip + 1 => segmentsFrom pattern s skip
  | a :: s, 0 =>
    if pattern <+: a :: s then [] :: segmentsFrom pattern s (pattern.length - 1)
    else (segmentsFrom pattern s 0).modifyHead (a :: ·)

section Segments
variable {pattern : List α}

theorem segmentsFrom_ne_nil (s : List α) (skip : Nat) : segmentsFrom pattern s skip ≠ [] := by
  induction s generalizing skip with
  | nil => exact List.cons_ne_nil _ _
  | cons a s ih =>
    cases skip with
    | succ skip => exact ih skip
    | zero =>
      unfold segmentsFrom
      split_ifs
      · exact List.cons_ne_nil _ _
      · simpa using ih 0

theorem replaceFrom_eq (marker s : List α) (skip : Nat) :
    replaceFrom pattern marker s skip = marker.intercalate (segmentsFrom pattern s skip) := by
  induction s generalizing skip with
  | nil => simp [replaceFrom, segmentsFrom]
  | cons a s ih =>
    cases skip with
    | succ skip => exact ih skip
    | zero =>
      unfold replaceFrom segmentsFrom
      split_ifs
      · rw [ih]
        obtain ⟨seg, segs, hsegs⟩ :=
          List.exists_cons_of_ne_nil (segmentsFrom_ne_nil s (pattern.length - 1))
        rw [hsegs, List.intercalate_cons_cons, List.nil_append]
      · rw [ih]
        obtain ⟨seg, segs, hsegs⟩ :=
          List.exists_cons_of_ne_nil (@segmentsFrom_ne_nil _ _ pattern s 0)
        rw [hsegs, List.modifyHead_cons]
        cases segs <;> simp [List.intercalate_cons_cons]

/-- The first segment begins the text, and every segment is a part of it. -/
theorem segmentsFrom_parts (s : List α) (skip : Nat) :
    (∀ seg ∈ (segmentsFrom pattern s skip).head?, seg <+: s.drop skip) ∧
      ∀ seg ∈ segmentsFrom pattern s skip, seg <:+: s := by
  induction s generalizing skip with
  | nil => cases skip <;> simp [segmentsFrom]
  | cons a s ih =>
    cases skip with
    | succ skip =>
      obtain ⟨hhead, hall⟩ := ih skip
      exact ⟨hhead, fun seg hseg => (hall seg hseg).trans (List.suffix_cons a s).isInfix⟩
    | zero =>
      unfold segmentsFrom
      split_ifs
      · refine ⟨by simp, fun seg hseg => ?_⟩
        rcases List.mem_cons.mp hseg with rfl | hseg
        · exact List.nil_infix
        · exact ((ih _).2 seg hseg).trans (List.suffix_cons a s).isInfix
      · obtain ⟨hhead, hall⟩ := ih 0
        obtain ⟨first, segs, hsegs⟩ :=
          List.exists_cons_of_ne_nil (@segmentsFrom_ne_nil _ _ pattern s 0)
        rw [hsegs] at hhead hall
        rw [hsegs, List.modifyHead_cons]
        have hfirst : a :: first <+: a :: s :=
          (List.cons_prefix_cons).mpr ⟨rfl, hhead first rfl⟩
        refine ⟨fun seg hseg => ?_, fun seg hseg => ?_⟩
        · cases hseg
          exact hfirst
        · rcases List.mem_cons.mp hseg with rfl | hseg
          · exact hfirst.isInfix
          · exact (hall seg (List.mem_cons_of_mem _ hseg)).trans (List.suffix_cons a s).isInfix

/-- No segment contains the pattern. -/
theorem segmentsFrom_free (hpattern : pattern ≠ []) (s : List α) (skip : Nat) :
    ∀ seg ∈ segmentsFrom pattern s skip, ¬ pattern <:+: seg := by
  induction s generalizing skip with
  | nil =>
    intro seg hseg
    rw [List.mem_singleton.mp hseg, List.infix_nil]
    exact hpattern
  | cons a s ih =>
    cases skip with
    | succ skip => exact ih skip
    | zero =>
      unfold segmentsFrom
      split_ifs with hmatch
      · intro seg hseg
        rcases List.mem_cons.mp hseg with rfl | hseg
        · rwa [List.infix_nil]
        · exact ih _ seg hseg
      · obtain ⟨first, segs, hsegs⟩ :=
          List.exists_cons_of_ne_nil (@segmentsFrom_ne_nil _ _ pattern s 0)
        have hfree := ih 0
        have hfirst := (@segmentsFrom_parts _ _ pattern s 0).1
        rw [hsegs] at hfree hfirst
        rw [hsegs, List.modifyHead_cons]
        intro seg hseg
        rcases List.mem_cons.mp hseg with rfl | hseg
        · rw [List.infix_cons_iff]
          rintro (hstart | hinfix)
          · exact hmatch (hstart.trans (List.cons_prefix_cons.mpr ⟨rfl, hfirst first rfl⟩))
          · exact hfree first List.mem_cons_self hinfix
        · exact hfree seg (List.mem_cons_of_mem _ hseg)

end Segments

section Laws
variable {marker word pattern : List α}

/-- A word that does not straddle the marker is not brought in by a replacement. -/
theorem infix_of_replace (hword : ¬ Straddles marker word) (hmarker : ¬ word <:+: marker)
    {s : List α} (h : word <:+: replace pattern marker s) : word <:+: s := by
  rw [replace, replaceFrom_eq] at h
  obtain ⟨seg, hseg, hinfix⟩ := infix_of_intercalate hword hmarker h
  exact hinfix.trans ((segmentsFrom_parts s 0).2 seg hseg)

/-- A pattern that does not straddle the marker is gone after its replacement. -/
theorem not_infix_replace (hpattern : ¬ Straddles marker pattern)
    (hmarker : ¬ pattern <:+: marker) (s : List α) :
    ¬ pattern <:+: replace pattern marker s := by
  intro h
  have hne : pattern ≠ [] := by
    rintro rfl
    exact hmarker List.nil_infix
  rw [replace, replaceFrom_eq] at h
  obtain ⟨seg, hseg, hinfix⟩ := infix_of_intercalate hpattern hmarker h
  exact segmentsFrom_free hne s 0 seg hseg hinfix

theorem replaceFrom_fresh {a : α} (ha : a ∉ word) (t : List α) :
    replaceFrom [a] marker (word ++ t) 0 = word ++ replaceFrom [a] marker t 0 := by
  induction word with
  | nil => rfl
  | cons b word ih =>
    have hne : ¬ [a] <+: b :: (word ++ t) := fun h =>
      ha (by simp [(List.cons_prefix_cons.mp h).1])
    rw [List.cons_append, replaceFrom, if_neg hne,
      ih fun hmem => ha (List.mem_cons_of_mem _ hmem), List.cons_append]

theorem replace_fresh {a : α} {s t : List α} (hs : a ∉ s) (ht : a ∉ t) :
    replace [a] marker (s ++ a :: t) = s ++ (marker ++ t) := by
  have hend : replaceFrom [a] marker t 0 = t := by
    simpa [replaceFrom] using @replaceFrom_fresh _ _ marker t a ht []
  have hmatch : [a] <+: a :: t := List.cons_prefix_cons.mpr ⟨rfl, List.nil_prefix⟩
  rw [replace, replaceFrom_fresh hs, replaceFrom, if_pos hmatch]
  exact congrArg (fun u => s ++ (marker ++ u)) hend

/-- A word that straddles the marker is brought in where a fresh element is replaced. -/
theorem exists_replace_of_straddles (hmarker : marker ≠ []) (h : Straddles marker word) {a : α}
    (ha : a ∉ word) : ∃ s, [a] <:+: s ∧ ¬ word <:+: s ∧ word <:+: replace [a] marker s := by
  obtain ⟨b, c, ⟨hb, hsubb⟩, ⟨hc, hsubc⟩, hword⟩ := around_of_straddles hmarker h
  refine ⟨b ++ a :: c, ⟨b, c, by simp⟩, fun hinfix => ?_, ?_⟩
  · rcases infix_of_fresh ha hinfix with hinfix | hinfix
    · exact absurd hinfix.length_le (by omega)
    · exact absurd hinfix.length_le (by omega)
  · rwa [replace_fresh (fun hmem => ha (hsubb hmem)) fun hmem => ha (hsubc hmem)]

end Laws
end FaultLane.Replacement
