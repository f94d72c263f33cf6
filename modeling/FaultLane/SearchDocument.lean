import FaultLane.Replacement
import FaultLane.Redaction

set_option autoImplicit false

/-!
# The search document

The text of an event that is searched: its messages, the names in its stacks and its
facets, one after another with a separator between them, cut at a limit.
-/
namespace FaultLane.SearchDocument
open RustText Json Redaction Replacement

def maxSearchDocumentChars : Nat := 65536

def unitSeparator : Char := Char.ofNat 31

section Model

/-- The document and the room that is left in it. -/
def append (state : Text × Nat) (value : Option Text) : Text × Nat :=
  match value.filter fun value => !value.isEmpty with
  | none => state
  | some value =>
    if state.2 = 0 then state
    else
      let state := if state.1.isEmpty then state else (state.1 ++ [unitSeparator], state.2 - 1)
      let taken := value.take state.2
      (state.1 ++ taken, state.2 - taken.length)

def textAt (path : List String) (value : Json) : Option Text :=
  ((value.pointer path).bind asStr).map String.toList

/-- The elements at a path, none when there is no array. -/
def elementsAt (path : List String) (value : Json) : List Json :=
  ((value.pointer path).bind asArray).getD []

def messages (result : Json) : List (Option Text) :=
  [textAt ["crash_context", "error_message"] result,
    textAt ["crash_context", "user_comment"] result]

def frameNames (frame : Json) : List (Option Text) :=
  textAt ["function"] frame :: (elementsAt ["inlines"] frame).map (textAt ["function"])

def moduleNames (result : Json) : List (Option Text) :=
  (elementsAt ["current", "symbolication", "modules"] result).map (textAt ["module"])

def functionNames (result : Json) : List (Option Text) :=
  (elementsAt ["current", "symbolication", "threads"] result).flatMap fun thread =>
    (elementsAt ["frames"] thread).flatMap frameNames

/-- What is appended, in this order. -/
def searchValues (result : Json) (facets : List ContextFacet) : List (Option Text) :=
  messages result ++ (moduleNames result ++ (functionNames result ++
    facets.map fun facet => some facet.value))

def eventSearchText (result : Json) (facets : List ContextFacet) : Text :=
  ((searchValues result facets).foldl append ([], maxSearchDocumentChars)).1

end Model

section Pieces

/-- The texts that are there and not empty. -/
def present (values : List (Option Text)) : List Text :=
  values.filterMap fun value => value.filter fun text => !text.isEmpty

/-- The texts as they fit: each takes its length and a separator from the room. -/
def fit : Nat → List Text → List Text
  | _, [] => []
  | 0, _ => []
  | room + 1, text :: texts => text.take room :: fit (room - text.length) texts

theorem fit_zero (texts : List Text) : fit 0 texts = [] := by
  cases texts <;> rfl

def roomAfter (room : Nat) (texts : List Text) : Nat :=
  room - (texts.map fun text => text.length + 1).sum

theorem fit_append (room : Nat) (texts later : List Text) :
    fit room (texts ++ later) = fit room texts ++ fit (roomAfter room texts) later := by
  induction texts generalizing room with
  | nil => cases room <;> rfl
  | cons text texts ih =>
    cases room with
    | zero =>
      have hroom : roomAfter 0 (text :: texts) = 0 := Nat.zero_sub _
      rw [hroom, fit_zero, fit_zero, fit_zero, List.append_nil]
    | succ room =>
      have hroom : roomAfter (room + 1) (text :: texts) =
          roomAfter (room - text.length) texts := by
        simp only [roomAfter, List.map_cons, List.sum_cons]
        omega
      rw [List.cons_append, fit, fit, ih, hroom, List.cons_append]

theorem prefix_of_mem_fit {room : Nat} {texts : List Text} {piece : Text}
    (h : piece ∈ fit room texts) : ∃ text ∈ texts, piece <+: text := by
  induction texts generalizing room with
  | nil => cases room <;> cases h
  | cons text texts ih =>
    cases room with
    | zero => cases h
    | succ room =>
      rcases List.mem_cons.mp h with rfl | hrest
      · exact ⟨text, List.mem_cons_self, List.take_prefix room text⟩
      · obtain ⟨found, hfound, hstart⟩ := ih hrest
        exact ⟨found, List.mem_cons_of_mem _ hfound, hstart⟩

theorem append_absent {state : Text × Nat} {value : Option Text}
    (h : (value.filter fun text => !text.isEmpty) = none) : append state value = state := by
  rw [append, h]

/-- Later texts come behind a separator. -/
theorem append_foldl {document : Text} (hdocument : document ≠ []) (room : Nat)
    (values : List (Option Text)) :
    (values.foldl append (document, room)).1 =
      document ++ (fit room (present values)).flatMap (unitSeparator :: ·) := by
  induction values generalizing document room with
  | nil => cases room <;> simp [present, fit]
  | cons value values ih =>
    rw [List.foldl_cons]
    cases hvalue : value.filter fun text => !text.isEmpty with
    | none =>
      rw [append_absent hvalue, ih hdocument, present, present, List.filterMap_cons_none hvalue]
    | some text =>
      rw [present, List.filterMap_cons_some hvalue]
      cases room with
      | zero =>
        have hsame : append (document, 0) value = (document, 0) := by
          rw [append, hvalue]
          rfl
        rw [hsame, ih hdocument, fit_zero, fit_zero]
      | succ room =>
        have hnext : append (document, room + 1) value =
            (document ++ [unitSeparator] ++ text.take room, room - text.length) := by
          simp only [append, hvalue, Nat.add_one_ne_zero, if_false, List.isEmpty_iff, hdocument,
            Nat.add_sub_cancel, List.length_take, Prod.mk.injEq, true_and]
          omega
        rw [hnext, ih (by simp), fit, List.flatMap_cons]
        simp [present]

theorem intercalate_flatMap (separator : Char) (piece : Text) (pieces : List Text) :
    [separator].intercalate (piece :: pieces) = piece ++ pieces.flatMap (separator :: ·) := by
  induction pieces generalizing piece with
  | nil => simp
  | cons next pieces ih =>
    rw [List.intercalate_cons_cons, ih, List.flatMap_cons]
    simp

/-- The document is the texts that fit, with separators between them. -/
theorem eventSearchText_eq (result : Json) (facets : List ContextFacet) :
    eventSearchText result facets =
      [unitSeparator].intercalate
        (fit (maxSearchDocumentChars + 1) (present (searchValues result facets))) := by
  unfold eventSearchText
  generalize searchValues result facets = values
  induction values with
  | nil => rfl
  | cons value values ih =>
    rw [List.foldl_cons]
    cases hvalue : value.filter fun text => !text.isEmpty with
    | none =>
      rw [append_absent hvalue, ih, present, present, List.filterMap_cons_none hvalue]
    | some text =>
      have hnonempty : text ≠ [] := by
        have hsome := (Option.filter_eq_some_iff.mp hvalue).2
        simpa using hsome
      have hfirst : append ([], maxSearchDocumentChars) value =
          (text.take maxSearchDocumentChars, maxSearchDocumentChars - text.length) := by
        simp only [append, hvalue, List.isEmpty_nil, if_true, List.length_take, List.nil_append]
        rw [if_neg (by decide), Prod.mk.injEq]
        exact ⟨rfl, by omega⟩
      have htaken : text.take maxSearchDocumentChars ≠ [] := by
        rw [ne_eq, List.take_eq_nil_iff, not_or]
        exact ⟨by decide, hnonempty⟩
      have hpresent : present (value :: values) = text :: present values :=
        List.filterMap_cons_some hvalue
      rw [hfirst, append_foldl htaken, hpresent, fit, intercalate_flatMap]

/-- A word without separators stands in the document just when it stands in a piece. -/
theorem infix_eventSearchText_iff {word : Text} (hword : word ≠ [])
    (hseparator : unitSeparator ∉ word) (result : Json) (facets : List ContextFacet) :
    word <:+: eventSearchText result facets ↔
      ∃ piece ∈ fit (maxSearchDocumentChars + 1) (present (searchValues result facets)),
        word <:+: piece := by
  rw [eventSearchText_eq]
  generalize fit _ _ = pieces
  constructor
  · have hmarker : ¬ word <:+: [unitSeparator] := fun h => by
      cases word with
      | nil => exact hword rfl
      | cons c word =>
        have hmem := h.subset List.mem_cons_self
        exact hseparator (List.mem_singleton.mp hmem ▸ List.mem_cons_self)
    have hstraddles : ¬ Straddles [unitSeparator] word := by
      rintro (hinside | ⟨a, b, rfl, hb, hstart⟩ | ⟨a, b, rfl, ha, hend⟩)
      · exact hseparator (hinside.subset List.mem_cons_self)
      · obtain ⟨c, b, rfl⟩ := List.exists_cons_of_ne_nil hb
        have hmem := hstart.subset List.mem_cons_self
        exact hseparator (by simp [List.mem_singleton.mp hmem])
      · obtain ⟨c, a, rfl⟩ := List.exists_cons_of_ne_nil ha
        have hmem := hend.subset List.mem_cons_self
        exact hseparator (by simp [List.mem_singleton.mp hmem])
    exact infix_of_intercalate hstraddles hmarker
  · rintro ⟨piece, hpiece, hinside⟩
    refine hinside.trans ?_
    induction pieces with
    | nil => cases hpiece
    | cons first pieces ih =>
      rw [intercalate_flatMap]
      rcases List.mem_cons.mp hpiece with rfl | hpiece
      · exact (List.prefix_append piece _).isInfix
      · have hwithin : piece <:+: pieces.flatMap (unitSeparator :: ·) := by
          obtain ⟨before, after, rfl⟩ := List.append_of_mem hpiece
          rw [List.flatMap_append, List.flatMap_cons]
          exact ⟨before.flatMap (unitSeparator :: ·) ++ [unitSeparator],
            after.flatMap (unitSeparator :: ·), by simp⟩
        exact hwithin.trans (List.suffix_append first _).isInfix

end Pieces

end FaultLane.SearchDocument
