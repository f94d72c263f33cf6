import FaultLane.GroupingTemplate
import Mathlib.Data.List.Chain

set_option autoImplicit false

/-!
# Names that the normalizers give

Which texts are normalized functions, tokens and modules. A text that is short enough to be
kept whole is a normalized function exactly when it is its own normal form.
-/
namespace FaultLane.GroupingNames
open RustText GroupingText GroupingTemplate

/-- Single blanks, none of them first, and no control characters. -/
structure Spaced (s : Text) : Prop where
  blanks : ∀ c ∈ s, isWhitespace c = true → c = ' '
  plain : ∀ c ∈ s, isControl c = false
  single : s.IsChain fun c d => ¬ (c = ' ' ∧ d = ' ')
  first : s.head? ≠ some ' '

/-- Spaced, and with no blank at the end. -/
structure Clean (s : Text) : Prop extends Spaced s where
  last : s.getLast? ≠ some ' '

section Collapse

theorem Spaced.nil : Spaced [] := ⟨nofun, nofun, .nil, nofun⟩

theorem Spaced.of_append {s t : Text} (h : Spaced (s ++ t)) : Spaced s where
  blanks c hc := h.blanks c (List.mem_append_left _ hc)
  plain c hc := h.plain c (List.mem_append_left _ hc)
  single := (List.isChain_append.mp h.single).1
  first := by
    cases s with
    | nil => exact nofun
    | cons c s => exact h.first

theorem endsWith_blank (s : Text) : endsWith [' '] s = true ↔ s.getLast? = some ' ' := by
  rw [endsWith, List.isSuffixOf_iff_suffix]
  constructor
  · rintro ⟨init, rfl⟩
    exact List.getLast?_concat
  · intro h
    obtain ⟨init, hinit⟩ := List.getLast?_eq_some_iff.mp h
    exact ⟨init, hinit.symm⟩

theorem Spaced.step {s : Text} (h : Spaced s) (c : Char) : Spaced (collapseStep s c) := by
  unfold GroupingText.collapseStep
  split_ifs with hwhite hpush hcontrol
  · simp only [Bool.and_eq_true, Bool.not_eq_true', List.isEmpty_eq_false_iff] at hpush
    have hlast : s.getLast? ≠ some ' ' := by
      rw [ne_eq, ← endsWith_blank, hpush.2]
      exact Bool.false_ne_true
    refine ⟨?_, ?_, ?_, ?_⟩
    · intro d hd hspace
      rcases List.mem_append.mp hd with hd | hd
      · exact h.blanks d hd hspace
      · exact List.mem_singleton.mp hd
    · intro d hd
      rcases List.mem_append.mp hd with hd | hd
      · exact h.plain d hd
      · rw [List.mem_singleton.mp hd]
        rfl
    · refine List.isChain_append.mpr ⟨h.single, .singleton _, ?_⟩
      intro x hx y hy hboth
      rw [hboth.1] at hx
      exact hlast hx
    · rw [List.head?_append_of_ne_nil _ hpush.1]
      exact h.first
  · exact h
  · have hc : c ≠ ' ' := by
      rintro rfl
      exact hwhite rfl
    refine ⟨?_, ?_, ?_, ?_⟩
    · intro d hd hspace
      rcases List.mem_append.mp hd with hd | hd
      · exact h.blanks d hd hspace
      · rw [List.mem_singleton.mp hd] at hspace
        exact absurd hspace hwhite
    · intro d hd
      rcases List.mem_append.mp hd with hd | hd
      · exact h.plain d hd
      · rw [List.mem_singleton.mp hd]
        simpa using hcontrol
    · refine List.isChain_append.mpr ⟨h.single, .singleton _, ?_⟩
      intro x hx y hy hboth
      cases hy
      exact hc hboth.2
    · cases s with
      | nil => simpa using hc
      | cons d s => exact h.first
  · exact h

theorem spaced_collapse {s : Text} (h : Spaced s) (value : Text) :
    Spaced (value.foldl collapseStep s) := by
  induction value generalizing s with
  | nil => exact h
  | cons c value ih => exact ih (h.step c)

/-- A spaced text is left as it is. -/
theorem Spaced.collapse_eq {s : Text} (h : Spaced s) : s.foldl collapseStep [] = s := by
  induction s using List.reverseRecOn with
  | nil => rfl
  | append_singleton s c ih =>
    rw [List.foldl_append, ih h.of_append, List.foldl_cons, List.foldl_nil]
    have hc := List.mem_append_right s (List.mem_singleton.mpr (rfl : c = c))
    unfold GroupingText.collapseStep
    by_cases hwhite : isWhitespace c = true
    · have hspace := h.blanks c hc hwhite
      subst hspace
      have hne : s ≠ [] := by
        rintro rfl
        exact h.first rfl
      have hlast : endsWith [' '] s = false := by
        rw [← Bool.not_eq_true, endsWith_blank]
        intro hlast
        exact (List.isChain_append.mp h.single).2.2 ' ' hlast ' ' rfl ⟨rfl, rfl⟩
      rw [if_pos hwhite, if_pos]
      simp [hne, hlast]
    · rw [if_neg hwhite, if_pos]
      rw [h.plain c hc]
      rfl

theorem Spaced.tidy {s : Text} (h : Spaced s) : Tidy s where
  first c hc := by
    by_contra hwhite
    rw [Bool.not_eq_false] at hwhite
    have hspace := h.blanks c (List.mem_of_mem_head? hc) hwhite
    exact h.first (hspace ▸ hc)
  blanks := h.blanks

theorem getLast_trim (s : Text) : ∀ c ∈ (trim s).getLast?, isWhitespace c = false := by
  intro c hc
  rw [trim, trimEnd, List.getLast?_reverse] at hc
  by_contra hwhite
  rw [Bool.not_eq_false] at hwhite
  have hhead := List.head?_dropWhile_not isWhitespace (trimStart s).reverse
  rw [Option.mem_def.mp hc] at hhead
  dsimp only at hhead
  rw [hwhite] at hhead
  cases hhead

theorem clean_collapseWhitespace (value : Text) : Clean (collapseWhitespace value) := by
  have hspaced := spaced_collapse Spaced.nil value
  obtain ⟨blanks, heq, -⟩ := hspaced.tidy.trim_append
  have htrim : Spaced (collapseWhitespace value) := by
    rw [heq] at hspaced
    exact hspaced.of_append
  refine ⟨htrim, fun hlast => ?_⟩
  have hblank := getLast_trim _ ' ' hlast
  cases hblank

theorem trim_eq {s : Text} (hfirst : ∀ c ∈ s.head?, isWhitespace c = false)
    (hlast : ∀ c ∈ s.getLast?, isWhitespace c = false) : trim s = s := by
  have hstart : trimStart s = s := by
    cases s with
    | nil => rfl
    | cons c s => simp [trimStart, hfirst c rfl]
  rw [trim, hstart, trimEnd]
  rcases List.eq_nil_or_concat' s with rfl | ⟨init, c, rfl⟩
  · rfl
  · have hc := hlast c List.getLast?_concat
    simp [hc]

theorem Clean.collapseWhitespace_eq {s : Text} (h : Clean s) : collapseWhitespace s = s := by
  rw [collapseWhitespace, h.toSpaced.collapse_eq]
  refine trim_eq h.toSpaced.tidy.first fun c hc => ?_
  by_contra hwhite
  rw [Bool.not_eq_false] at hwhite
  have hspace := h.blanks c (List.mem_of_mem_getLast? hc) hwhite
  exact h.last (hspace ▸ hc)

end Collapse

section Lengths

theorem collapse_of_short {value s : Text} {f : Text → Text}
    (h : bounded (f (collapseWhitespace value)) maxComponentChars = s)
    (hshort : s.length < maxComponentChars) : f (collapseWhitespace value) = s := by
  have hlength := congrArg List.length h
  rw [bounded, List.length_take] at hlength
  rw [bounded, List.take_of_length_le (by omega)] at h
  exact h

theorem bounded_eq {s : Text} (h : s.length ≤ maxComponentChars) :
    bounded s maxComponentChars = s := List.take_of_length_le h

end Lengths

section Functions

/-- A text that stands for a function in a component. -/
def isFunctionName (s : Text) : Bool := !s.isEmpty && normalizeFunction s == s

theorem isFunctionName_iff {s : Text} (hshort : s.length < maxComponentChars) :
    isFunctionName s = true ↔ s ≠ [] ∧ Clean s := by
  rw [isFunctionName, Bool.and_eq_true, Bool.not_eq_true', List.isEmpty_eq_false_iff, beq_iff_eq]
  refine and_congr_right fun _ => ⟨fun h => ?_, fun h => ?_⟩
  · rw [← collapse_of_short (f := id) h hshort]
    exact clean_collapseWhitespace s
  · rw [normalizeFunction, h.collapseWhitespace_eq, bounded_eq hshort.le]

theorem clean_normalizeFunction {value : Text}
    (hshort : (normalizeFunction value).length < maxComponentChars) :
    Clean (normalizeFunction value) := by
  have heq : collapseWhitespace value = normalizeFunction value :=
    collapse_of_short (f := id) rfl hshort
  rw [← heq]
  exact clean_collapseWhitespace value

/-- Two clean texts with a visible character between them are clean. -/
theorem Clean.join {s t : Text} (hs : Clean s) (ht : Clean t) {c : Char}
    (hwhite : isWhitespace c = false) (hcontrol : isControl c = false) : Clean (s ++ c :: t) := by
  have hc : c ≠ ' ' := by
    rintro rfl
    cases hwhite
  refine ⟨⟨?_, ?_, ?_, ?_⟩, ?_⟩
  · intro d hd hspace
    rcases List.mem_append.mp hd with hd | hd
    · exact hs.blanks d hd hspace
    · rcases List.mem_cons.mp hd with rfl | hd
      · rw [hwhite] at hspace
        cases hspace
      · exact ht.blanks d hd hspace
  · intro d hd
    rcases List.mem_append.mp hd with hd | hd
    · exact hs.plain d hd
    · rcases List.mem_cons.mp hd with rfl | hd
      · exact hcontrol
      · exact ht.plain d hd
  · refine List.isChain_append.mpr ⟨hs.single, List.isChain_cons.mpr ⟨?_, ht.single⟩, ?_⟩
    · exact fun d _ hboth => hc hboth.1
    · intro d _ e he hboth
      cases he
      exact hc hboth.2
  · cases s with
    | nil => simpa using hc
    | cons d s => exact hs.first
  · cases t with
    | nil => simpa using hc
    | cons d t =>
      rw [List.getLast?_append_of_ne_nil _ (List.cons_ne_nil _ _), List.getLast?_cons_cons]
      exact ht.last

end Functions

section Tokens

def isToken (s : Text) : Bool := normalizeToken s == s

theorem toLower_toLower (c : Char) : c.toLower.toLower = c.toLower := by
  apply Char.toNat_inj.mp
  simp only [toLower_toNat]
  split_ifs <;> omega

theorem lowercase_lowercase (s : Text) :
    toAsciiLowercase (toAsciiLowercase s) = toAsciiLowercase s := by
  rw [toAsciiLowercase, toAsciiLowercase, List.map_map]
  exact List.map_congr_left fun c _ => toLower_toLower c

theorem isControl_toLower (c : Char) : isControl c.toLower = isControl c := by
  rw [Bool.eq_iff_iff]
  simp only [isControl, toLower_toNat, Bool.or_eq_true, Bool.and_eq_true, decide_eq_true_eq]
  split_ifs <;> omega

theorem toLower_eq_blank {c : Char} (h : c.toLower = ' ') : c = ' ' := by
  have hnat := congrArg Char.toNat h
  rw [toLower_toNat] at hnat
  apply Char.toNat_inj.mp
  split_ifs at hnat with hcase
  · change c.toNat + 32 = 32 at hnat
    omega
  · exact hnat

theorem Clean.lowercase {s : Text} (h : Clean s) : Clean (toAsciiLowercase s) := by
  have hblank : ∀ {o : Option Char}, o ≠ some ' ' → o.map Char.toLower ≠ some ' ' := by
    intro o hne heq
    obtain ⟨c, rfl, hc⟩ := Option.map_eq_some_iff.mp heq
    exact hne (congrArg some (toLower_eq_blank hc))
  refine ⟨⟨?_, ?_, ?_, ?_⟩, ?_⟩
  · intro d hd hspace
    obtain ⟨c, hc, rfl⟩ := List.mem_map.mp hd
    rw [isWhitespace_toLower] at hspace
    rw [h.blanks c hc hspace]
    rfl
  · intro d hd
    obtain ⟨c, hc, rfl⟩ := List.mem_map.mp hd
    rw [isControl_toLower, h.plain c hc]
  · rw [toAsciiLowercase, List.isChain_map]
    exact h.single.imp fun c d hne hboth =>
      hne ⟨toLower_eq_blank hboth.1, toLower_eq_blank hboth.2⟩
  · rw [toAsciiLowercase, List.head?_map]
    exact hblank h.first
  · rw [toAsciiLowercase, List.getLast?_map]
    exact hblank h.last

theorem isToken_normalizeToken {value : Text}
    (hshort : (normalizeToken value).length < maxComponentChars) :
    isToken (normalizeToken value) = true := by
  have heq : toAsciiLowercase (collapseWhitespace value) = normalizeToken value :=
    collapse_of_short rfl hshort
  have hclean : Clean (normalizeToken value) := heq ▸ (clean_collapseWhitespace value).lowercase
  have hlower : toAsciiLowercase (normalizeToken value) = normalizeToken value := by
    rw [← heq, lowercase_lowercase]
  rw [isToken, beq_iff_eq]
  conv_lhs => rw [normalizeToken]
  rw [hclean.collapseWhitespace_eq, hlower, bounded_eq hshort.le]

end Tokens

section Modules

/-- A module is the normal form of itself or of its file name. -/
def isModuleName (s : Text) : Bool :=
  normalizeModule s == s || normalizeModule (s ++ ".dll".toList) == s

theorem split_cons (sep : Char → Bool) (c : Char) (s : Text) :
    ∃ part parts, split sep s = part :: parts ∧
      split sep (c :: s) = if sep c then [] :: part :: parts else (c :: part) :: parts := by
  obtain ⟨part, parts, heq⟩ := List.exists_cons_of_ne_nil (split_ne_nil sep s)
  refine ⟨part, parts, heq, ?_⟩
  rw [split, heq]
  cases sep c <;> rfl

theorem mem_split {sep : Char → Bool} {s part : Text} (h : part ∈ split sep s) :
    ∀ c ∈ part, c ∈ s ∧ sep c = false := by
  induction s generalizing part with
  | nil =>
    rw [List.mem_singleton.mp h]
    exact nofun
  | cons d s ih =>
    obtain ⟨first, parts, hs, hcons⟩ := split_cons sep d s
    have hparts : ∀ p ∈ first :: parts, ∀ c ∈ p, c ∈ d :: s ∧ sep c = false := by
      intro p hp c hc
      obtain ⟨hmem, hsep⟩ := ih (hs ▸ hp) c hc
      exact ⟨List.mem_cons_of_mem _ hmem, hsep⟩
    rw [hcons] at h
    split_ifs at h with hd
    · rcases List.mem_cons.mp h with rfl | h
      · exact nofun
      · exact hparts part h
    · rcases List.mem_cons.mp h with rfl | h
      · intro c hc
        rcases List.mem_cons.mp hc with rfl | hc
        · exact ⟨List.mem_cons_self, by simpa using hd⟩
        · exact hparts first List.mem_cons_self c hc
      · exact hparts part (List.mem_cons_of_mem _ h)

theorem split_empty_iff {sep : Char → Bool} {s : Text} :
    (∀ part ∈ split sep s, part = []) ↔ ∀ c ∈ s, sep c = true := by
  induction s with
  | nil => simp [split]
  | cons d s ih =>
    obtain ⟨first, parts, hs, hcons⟩ := split_cons sep d s
    rw [hs] at ih
    rw [hcons]
    split_ifs with hd
    · simp only [List.forall_mem_cons] at ih ⊢
      simp [hd, ih]
    · refine iff_of_false (fun h => ?_) fun h => hd (h d List.mem_cons_self)
      exact List.cons_ne_nil _ _ (h _ List.mem_cons_self)

theorem split_of_none {sep : Char → Bool} {s : Text} (h : ∀ c ∈ s, sep c = false) :
    split sep s = [s] := by
  induction s with
  | nil => rfl
  | cons d s ih =>
    rw [split, h d List.mem_cons_self, ih fun c hc => h c (List.mem_cons_of_mem _ hc)]

/-- What a leaf without its extension looks like. -/
structure Leaf (s : Text) : Prop where
  parts : ∀ c ∈ s, isPathSeparator c = false
  first : ∀ c ∈ s.head?, isWhitespace c = false
  lower : toAsciiLowercase s = s

theorem Leaf.of_append {s t : Text} (h : Leaf (s ++ t)) : Leaf s where
  parts c hc := h.parts c (List.mem_append_left _ hc)
  first := by
    cases s with
    | nil => exact nofun
    | cons c s => exact h.first
  lower := by
    have hlower := h.lower
    rw [toAsciiLowercase, List.map_append] at hlower
    exact (List.append_inj hlower (List.length_map _)).1

theorem isPathSeparator_toLower (c : Char) : isPathSeparator c.toLower = isPathSeparator c := by
  have hto : ∀ d : Char, ¬ (65 ≤ d.toNat ∧ d.toNat ≤ 90) → ¬ (97 ≤ d.toNat ∧ d.toNat ≤ 122) →
      (c.toLower = d ↔ c = d) := by
    intro d hupper hlower
    rw [← Char.toNat_inj, ← Char.toNat_inj, toLower_toNat]
    split_ifs <;> omega
  have hslash := hto '/' (by decide) (by decide)
  have hback := hto '\\' (by decide) (by decide)
  rw [Bool.eq_iff_iff]
  simp only [isPathSeparator, Bool.or_eq_true, beq_iff_eq, hslash, hback]

theorem trim_within (s : Text) : trim s <:+: s := by
  have hend : ∀ t : Text, trimEnd t <+: t := by
    intro t
    rw [trimEnd, ← List.reverse_suffix, List.reverse_reverse]
    exact List.dropWhile_suffix _
  exact ((hend _).isInfix).trans (List.dropWhile_suffix _).isInfix

theorem head_trim (s : Text) : ∀ c ∈ (trim s).head?, isWhitespace c = false := by
  intro c hc
  have htrim : trim s <+: trimStart s := by
    rw [trim, trimEnd, ← List.reverse_suffix, List.reverse_reverse]
    exact List.dropWhile_suffix _
  obtain ⟨t, ht⟩ := htrim
  have hstart : (trimStart s).head? = some c := by
    cases htrim : trim s with
    | nil =>
      rw [htrim] at hc
      cases hc
    | cons d rest =>
      rw [htrim] at hc ht
      rw [← ht]
      exact hc
  by_contra hwhite
  rw [Bool.not_eq_false] at hwhite
  have hhead := List.head?_dropWhile_not isWhitespace s
  rw [show s.dropWhile isWhitespace = trimStart s from rfl, hstart] at hhead
  dsimp only at hhead
  rw [hwhite] at hhead
  cases hhead

theorem leaf_of_part {part : Text} (h : ∀ c ∈ part, isPathSeparator c = false) :
    Leaf (toAsciiLowercase (trim part)) where
  parts c hc := by
    obtain ⟨d, hd, rfl⟩ := List.mem_map.mp hc
    rw [isPathSeparator_toLower]
    exact h d ((trim_within part).subset hd)
  first c hc := by
    rw [toAsciiLowercase, List.head?_map] at hc
    obtain ⟨d, hd, rfl⟩ := Option.map_eq_some_iff.mp hc
    rw [isWhitespace_toLower]
    exact head_trim part d hd
  lower := lowercase_lowercase _

theorem normalizeModule_of_part {value part : Text}
    (h : ((rsplit isPathSeparator value).find? (!·.isEmpty)).getD value = part) :
    normalizeModule value =
      bounded (((stripSuffix ".dll".toList (toAsciiLowercase (trim part))).or
        (stripSuffix ".exe".toList (toAsciiLowercase (trim part)))).getD
          (toAsciiLowercase (trim part))) maxComponentChars := by
  rw [← h]
  rfl

theorem stripSuffix_append (s suffix : Text) : stripSuffix suffix (s ++ suffix) = some s := by
  rw [stripSuffix, if_pos (List.isSuffixOf_iff_suffix.mpr (List.suffix_append _ _)),
    List.length_append, Nat.add_sub_cancel, List.take_left]

theorem stripSuffix_prefix {suffix s rest : Text} (h : stripSuffix suffix s = some rest) :
    rest <+: s := by
  unfold stripSuffix at h
  split_ifs at h
  cases h
  exact List.take_prefix _ _

/-- The module of a file name is the name. -/
theorem Leaf.normalizeModule_dll {s : Text} (h : Leaf s) (hlength : s.length ≤ maxComponentChars) :
    normalizeModule (s ++ ".dll".toList) = s := by
  have hparts : ∀ c ∈ s ++ ".dll".toList, isPathSeparator c = false := by
    have hdll : ".dll".toList.all (fun c => !isPathSeparator c) = true := by decide
    intro c hc
    rcases List.mem_append.mp hc with hc | hc
    · exact h.parts c hc
    · exact Bool.not_eq_true' _ ▸ List.all_eq_true.mp hdll c hc
  have hne : (s ++ ".dll".toList).isEmpty = false := by cases s <;> rfl
  have hpart : ((rsplit isPathSeparator (s ++ ".dll".toList)).find? (!·.isEmpty)).getD
      (s ++ ".dll".toList) = s ++ ".dll".toList := by
    rw [rsplit, split_of_none hparts, List.reverse_singleton, List.find?_cons, hne]
    rfl
  have htrim : trim (s ++ ".dll".toList) = s ++ ".dll".toList := by
    refine trim_eq ?_ fun c hc => ?_
    · cases s with
      | nil =>
        intro c hc
        cases hc
        rfl
      | cons d s => exact h.first
    · rw [List.getLast?_append] at hc
      cases hc
      rfl
  have hlower : toAsciiLowercase (s ++ ".dll".toList) = s ++ ".dll".toList := by
    rw [toAsciiLowercase, List.map_append]
    exact congrArg (· ++ ".dll".toList) h.lower
  rw [normalizeModule_of_part hpart, htrim, hlower, stripSuffix_append, Option.some_or,
    Option.getD_some, bounded_eq hlength]

theorem stripSuffix_none {s suffix : Text} {c : Char} (hsuffix : suffix.getLast? = some c)
    (h : ∀ d ∈ s.getLast?, d ≠ c) : stripSuffix suffix s = none := by
  rw [stripSuffix, if_neg]
  intro hmem
  obtain ⟨init, hinit⟩ := List.isSuffixOf_iff_suffix.mp hmem
  rw [← hinit, List.getLast?_append, hsuffix] at h
  exact h c rfl rfl

theorem separator_tests {c : Char} (h : isPathSeparator c = true) :
    isWhitespace c = false ∧ c.toLower = c ∧ c ≠ 'l' ∧ c ≠ 'e' := by
  simp only [isPathSeparator, Bool.or_eq_true, beq_iff_eq] at h
  rcases h with rfl | rfl
  · exact ⟨rfl, rfl, by decide, by decide⟩
  · exact ⟨rfl, rfl, by decide, by decide⟩

theorem normalizeModule_separators {s : Text} (h : ∀ c ∈ s, isPathSeparator c = true) :
    normalizeModule s = bounded s maxComponentChars := by
  have hpart : ((rsplit isPathSeparator s).find? (!·.isEmpty)).getD s = s := by
    rw [List.find?_eq_none.mpr]
    · rfl
    · intro part hpart
      rw [split_empty_iff.mpr h part (List.mem_reverse.mp hpart)]
      simp
  have htrim : trim s = s :=
    trim_eq (fun c hc => (separator_tests (h c (List.mem_of_mem_head? hc))).1)
      fun c hc => (separator_tests (h c (List.mem_of_mem_getLast? hc))).1
  have hlower : toAsciiLowercase s = s := by
    conv_rhs => rw [← List.map_id s]
    exact List.map_congr_left fun c hc => (separator_tests (h c hc)).2.1
  have hdll : stripSuffix ".dll".toList s = none := stripSuffix_none (by rfl) fun c hc =>
    (separator_tests (h c (List.mem_of_mem_getLast? hc))).2.2.1
  have hexe : stripSuffix ".exe".toList s = none := stripSuffix_none (by rfl) fun c hc =>
    (separator_tests (h c (List.mem_of_mem_getLast? hc))).2.2.2
  rw [normalizeModule_of_part hpart, htrim, hlower, hdll, hexe]
  rfl

/-- The leaf of a path, where the path is more than separators. -/
theorem leaf_normalizeModule {value part : Text}
    (h : (rsplit isPathSeparator value).find? (!·.isEmpty) = some part) :
    Leaf (normalizeModule value) ∧ (normalizeModule value).length ≤ maxComponentChars := by
  have hmem : part ∈ split isPathSeparator value :=
    List.mem_reverse.mp (List.mem_of_find?_eq_some h)
  have hleaf := leaf_of_part fun c hc => (mem_split hmem c hc).2
  rw [normalizeModule_of_part (by rw [h, Option.getD_some])]
  refine ⟨?_, List.length_take_le _ _⟩
  have hstripped : ((stripSuffix ".dll".toList (toAsciiLowercase (trim part))).or
      (stripSuffix ".exe".toList (toAsciiLowercase (trim part)))).getD
        (toAsciiLowercase (trim part)) <+: toAsciiLowercase (trim part) := by
    cases hdll : stripSuffix ".dll".toList (toAsciiLowercase (trim part)) with
    | some rest => exact stripSuffix_prefix hdll
    | none =>
      cases hexe : stripSuffix ".exe".toList (toAsciiLowercase (trim part)) with
      | some rest => exact stripSuffix_prefix hexe
      | none => exact List.prefix_rfl
  obtain ⟨t, ht⟩ := (List.take_prefix maxComponentChars _).trans hstripped
  rw [← ht] at hleaf
  exact hleaf.of_append

theorem isModuleName_normalizeModule (value : Text) :
    isModuleName (normalizeModule value) = true := by
  rw [isModuleName, Bool.or_eq_true, beq_iff_eq, beq_iff_eq]
  cases hpart : (rsplit isPathSeparator value).find? (!·.isEmpty) with
  | some part =>
    obtain ⟨hleaf, hlength⟩ := leaf_normalizeModule hpart
    exact .inr (hleaf.normalizeModule_dll hlength)
  | none =>
    have hseparators : ∀ c ∈ value, isPathSeparator c = true := by
      refine split_empty_iff.mp fun part hmem => ?_
      simpa using List.find?_eq_none.mp hpart part (List.mem_reverse.mpr hmem)
    have hcut : ∀ c ∈ bounded value maxComponentChars, isPathSeparator c = true := fun c hc =>
      hseparators c (List.mem_of_mem_take hc)
    rw [normalizeModule_separators hseparators]
    left
    have hlength : (bounded value maxComponentChars).length ≤ maxComponentChars :=
      List.length_take_le _ _
    rw [normalizeModule_separators hcut, bounded_eq hlength]

/-- Every module name is the normal form of some module. -/
theorem exists_module {s : Text} (h : isModuleName s = true) :
    ∃ value, normalizeModule value = s := by
  rw [isModuleName, Bool.or_eq_true, beq_iff_eq, beq_iff_eq] at h
  rcases h with h | h
  · exact ⟨_, h⟩
  · exact ⟨_, h⟩

end Modules

end FaultLane.GroupingNames
