import Mathlib.Data.List.Basic

set_option autoImplicit false

/-!
# Passes that change a list in place

A loop over the positions of a list that computes each new element from the list as it then
is. Where the computation reads only what the loop does not write, the pass is a map over
the list as it was.
-/
namespace FaultLane.InPlacePass
variable {α β : Type}

def pass (f : List α → Nat → α → α) (l : List α) : List α :=
  (List.range l.length).foldl (fun current i => current.modify i (f current i)) l

/-- The list when the pass has come to a position, by the elements as they were. -/
def passedTo (f : List α → Nat → α → α) (l : List α) (n : Nat) : List α :=
  l.mapIdx fun i a => if i < n then f l i a else a

variable {f : List α → Nat → α → α} {face : α → β}

theorem map_face_passedTo (hkeeps : ∀ l i a, face (f l i a) = face a) (l : List α) (n : Nat) :
    (passedTo f l n).map face = l.map face := by
  apply List.ext_getElem?
  intro i
  rw [passedTo, List.getElem?_map, List.getElem?_mapIdx, List.getElem?_map]
  cases l[i]? with
  | none => rfl
  | some a =>
    simp only [Option.map_some]
    split_ifs
    · rw [hkeeps]
    · rfl

theorem modify_passedTo (hreads : ∀ l l' : List α, l.map face = l'.map face → f l = f l')
    (hkeeps : ∀ l i a, face (f l i a) = face a) (l : List α) (n : Nat) :
    (passedTo f l n).modify n (f (passedTo f l n) n) = passedTo f l (n + 1) := by
  rw [hreads _ l (map_face_passedTo hkeeps l n)]
  apply List.ext_getElem?
  intro i
  rw [List.getElem?_modify, passedTo, passedTo, List.getElem?_mapIdx, List.getElem?_mapIdx]
  cases l[i]? with
  | none => simp
  | some a =>
    by_cases heq : n = i
    · subst heq
      simp
    · have hiff : i < n + 1 ↔ i < n := by omega
      simp [heq, hiff]

/-- Writing does not disturb reading: the pass reads the list as it was. -/
theorem pass_eq_mapIdx (hreads : ∀ l l' : List α, l.map face = l'.map face → f l = f l')
    (hkeeps : ∀ l i a, face (f l i a) = face a) (l : List α) : pass f l = l.mapIdx (f l) := by
  have hrun : ∀ n, (List.range n).foldl (fun current i => current.modify i (f current i)) l =
      passedTo f l n := by
    intro n
    induction n with
    | zero =>
      apply List.ext_getElem?
      intro i
      simp [passedTo]
    | succ n ih =>
      rw [List.range_succ, List.foldl_append, ih]
      exact modify_passedTo hreads hkeeps l n
  rw [pass, hrun, passedTo]
  apply List.ext_getElem?
  intro i
  rw [List.getElem?_mapIdx, List.getElem?_mapIdx]
  cases hi : l[i]? with
  | none => rfl
  | some a =>
    rw [Option.map_some, Option.map_some, if_pos (List.getElem?_eq_some_iff.mp hi).1]

end FaultLane.InPlacePass
