import Mathlib.Algebra.Order.Ring.Int
import Mathlib.Data.List.Pairwise
import Mathlib.Order.Basic

set_option autoImplicit false

/-!
# Pages of a sorted list

The first rows of a sorted list, up to a limit, and the last of them, after which the next page
begins. Page after page, a walk comes to every row once.
-/
namespace FaultLane.KeysetPage
variable {α : Type} [LinearOrder α] {rows : List α} {x : α} {n : Nat}

/-- A row is on the page, or the page is full and ends before it. -/
theorem mem_take_or_lt (hs : rows.Pairwise (· ≤ ·)) (hx : x ∈ rows) :
    x ∈ rows.take n ∨ (n < rows.length ∧ ∀ y ∈ rows.take n, y < x) := by
  by_cases hin : x ∈ rows.take n
  · exact .inl hin
  · rw [← List.take_append_drop n rows] at hx hs
    have hdrop : x ∈ rows.drop n := (List.mem_append.mp hx).resolve_left hin
    have hlength := List.length_pos_of_mem hdrop
    rw [List.length_drop] at hlength
    refine .inr ⟨by omega, fun y hy => ?_⟩
    have hle := (List.pairwise_append.mp hs).2.2 y hy x hdrop
    exact lt_of_le_of_ne hle fun heq => hin (heq ▸ hy)

omit [LinearOrder α] in
theorem take_ne_nil (hn : 0 < n) (hlength : n < rows.length) : rows.take n ≠ [] := by
  intro hnil
  have hzero : (rows.take n).length = 0 := by
    rw [hnil]
    rfl
  rw [List.length_take] at hzero
  omega

/-- The last row of a page is above all its rows, and it is one of them. -/
theorem le_last_of_take (hs : rows.Pairwise (· ≤ ·)) {last : α}
    (hlast : (rows.take n).getLast? = some last) :
    last ∈ rows.take n ∧ ∀ y ∈ rows.take n, y ≤ last := by
  have hpage : (rows.take n).Pairwise (· ≤ ·) := hs.sublist (List.take_sublist n rows)
  obtain ⟨front, heq⟩ := List.getLast?_eq_some_iff.mp hlast
  rw [heq] at hpage ⊢
  refine ⟨List.mem_append_right front List.mem_cons_self, fun y hy => ?_⟩
  rcases List.mem_append.mp hy with hy | hy
  · exact (List.pairwise_append.mp hpage).2.2 y hy last List.mem_cons_self
  · exact (List.mem_singleton.mp hy).le

/-! ## Pages by a key -/

section keyed
variable {β : Type} {key : β → α} {sorted : List β} {b : β}

/-- A row is on the page, or the page is full and its last row comes before it. -/
theorem mem_page_or_last_lt (hn : 0 < n) (hs : sorted.Pairwise fun a b => key a < key b)
    (hb : b ∈ sorted) : b ∈ sorted.take n ∨
      n < sorted.length ∧ ∃ last, (sorted.take n).getLast? = some last ∧ key last < key b := by
  by_cases hin : b ∈ sorted.take n
  · exact .inl hin
  · rw [← List.take_append_drop n sorted] at hb hs
    have hdrop : b ∈ sorted.drop n := (List.mem_append.mp hb).resolve_left hin
    have hlength := List.length_pos_of_mem hdrop
    rw [List.length_drop] at hlength
    have hmore : n < sorted.length := by omega
    obtain ⟨last, hlast⟩ :=
      Option.ne_none_iff_exists'.mp (mt List.getLast?_eq_none_iff.mp (take_ne_nil hn hmore))
    have hlt := (List.pairwise_append.mp hs).2.2 last (List.mem_of_getLast? hlast) b hdrop
    exact .inr ⟨hmore, last, hlast, hlt⟩

/-- The last row of a page comes behind its other rows. -/
theorem key_le_last (hs : sorted.Pairwise fun a b => key a < key b) {last : β}
    (hlast : (sorted.take n).getLast? = some last) (hb : b ∈ sorted.take n) :
    key b ≤ key last := by
  have hpage : (sorted.take n).Pairwise fun a b => key a < key b :=
    hs.sublist (List.take_sublist n sorted)
  obtain ⟨front, heq⟩ := List.getLast?_eq_some_iff.mp hlast
  rw [heq] at hpage hb
  rcases List.mem_append.mp hb with hb | hb
  · exact ((List.pairwise_append.mp hpage).2.2 b hb last List.mem_cons_self).le
  · rw [List.mem_singleton.mp hb]

end keyed

/-! ## Walks downwards -/

section walks
variable {β : Type} (key : β → α) (limit : Nat) (sorted : List β)

/-- The rows below a cursor. -/
def below (cursor : Option α) : List β := sorted.filter fun b => ∀ c ∈ cursor, key b < c

/-- A page asks for one more row than it shows. -/
def page (cursor : Option α) : List β := ((below key sorted cursor).take (limit + 1)).take limit

def nextCursor (cursor : Option α) : Option α :=
  if limit < ((below key sorted cursor).take (limit + 1)).length then
    (page key limit sorted cursor).getLast?.map key
  else none

/-- The rows of all pages from a cursor on, when the last of so many requests has no next one. -/
def walk : Nat → Option α → Option (List β)
  | 0, _ => none
  | requests + 1, cursor =>
    match nextCursor key limit sorted cursor with
    | none => some (page key limit sorted cursor)
    | some c => (walk requests (some c)).map (page key limit sorted cursor ++ ·)

variable {key limit sorted}

theorem below_none : below key sorted none = sorted :=
  List.filter_eq_self.mpr fun _ _ => decide_eq_true nofun

theorem page_eq {cursor : Option α} :
    page key limit sorted cursor = (below key sorted cursor).take limit := by
  rw [page, List.take_take, Nat.min_eq_left (Nat.le_succ limit)]

/-- The last row of a page parts the rows below the cursor. -/
theorem below_last (hs : sorted.Pairwise fun a b => key b < key a) {cursor : Option α} {b : β}
    (hb : ((below key sorted cursor).take limit).getLast? = some b) :
    below key sorted (some (key b)) = (below key sorted cursor).drop limit := by
  have hpairwise : (below key sorted cursor).Pairwise fun a b => key b < key a :=
    hs.sublist List.filter_sublist
  have hmem : b ∈ below key sorted cursor := List.mem_of_mem_take (List.mem_of_getLast? hb)
  have hcursor : ∀ c ∈ cursor, key b < c := of_decide_eq_true (List.mem_filter.mp hmem).2
  have hfilter : below key sorted (some (key b)) =
      (below key sorted cursor).filter fun x => key x < key b := by
    unfold below
    rw [List.filter_filter]
    refine List.filter_congr fun x _ => ?_
    rw [← Bool.decide_and, decide_eq_decide]
    constructor
    · intro h
      have hlt := h (key b) rfl
      exact ⟨hlt, fun c hc => lt_trans hlt (hcursor c hc)⟩
    · rintro ⟨hlt, -⟩ c hc
      rw [← Option.some.inj hc]
      exact hlt
  rw [hfilter]
  rw [← List.take_append_drop limit (below key sorted cursor)] at hpairwise
  obtain ⟨hpage, -, hafter⟩ := List.pairwise_append.mp hpairwise
  obtain ⟨front, hfront⟩ := List.getLast?_eq_some_iff.mp hb
  have hnone : ((below key sorted cursor).take limit).filter (fun x => key x < key b) = [] := by
    refine List.filter_eq_nil_iff.mpr fun x hx hlt => ?_
    rw [hfront] at hpage hx
    rcases List.mem_append.mp hx with hx | hx
    · have hgt := (List.pairwise_append.mp hpage).2.2 x hx b List.mem_cons_self
      exact lt_asymm hgt (of_decide_eq_true hlt)
    · rw [List.mem_singleton.mp hx] at hlt
      exact lt_irrefl _ (of_decide_eq_true hlt)
  have hall : ((below key sorted cursor).drop limit).filter (fun x => key x < key b) =
      (below key sorted cursor).drop limit :=
    List.filter_eq_self.mpr fun x hx =>
      decide_eq_true (hafter b (List.mem_of_getLast? hb) x hx)
  calc
    (below key sorted cursor).filter (fun x => key x < key b) =
        ((below key sorted cursor).take limit ++ (below key sorted cursor).drop limit).filter
          fun x => key x < key b := by rw [List.take_append_drop]
    _ = (below key sorted cursor).drop limit := by
      rw [List.filter_append, hnone, hall, List.nil_append]

/-- Induction on the rows below the cursor, of which each request leaves fewer. -/
theorem walk_below (hlimit : 0 < limit) (hs : sorted.Pairwise fun a b => key b < key a) (m : Nat)
    (cursor : Option α) (hm : (below key sorted cursor).length ≤ m) :
    walk key limit sorted (m + 1) cursor = some (below key sorted cursor) := by
  induction m generalizing cursor with
  | zero =>
    have hnil := List.length_eq_zero_iff.mp (Nat.le_zero.mp hm)
    rw [walk, nextCursor, page_eq, hnil, List.take_nil, List.take_nil,
      if_neg (show ¬limit < ([] : List β).length from Nat.not_lt_zero limit)]
  | succ m ih =>
    rw [walk, nextCursor, page_eq]
    by_cases hmore : limit < (below key sorted cursor).length
    · have hpage := take_ne_nil hlimit hmore
      obtain ⟨b, hb⟩ := Option.ne_none_iff_exists'.mp (mt List.getLast?_eq_none_iff.mp hpage)
      have hrest := below_last hs hb
      have hfew : (below key sorted (some (key b))).length ≤ m := by
        rw [hrest, List.length_drop]
        omega
      rw [if_pos (by rw [List.length_take]; omega), hb, Option.map_some]
      dsimp only
      rw [ih (some (key b)) hfew, hrest, Option.map_some, List.take_append_drop]
    · rw [if_neg (by rw [List.length_take]; omega)]
      dsimp only
      rw [List.take_of_length_le (Nat.le_of_not_lt hmore)]

/-- Following the cursors gives all rows. -/
theorem walk_complete (hlimit : 0 < limit) (hs : sorted.Pairwise fun a b => key b < key a) :
    walk key limit sorted (sorted.length + 1) none = some sorted := by
  have hlength : (below key sorted (none : Option α)).length ≤ sorted.length :=
    Nat.le_of_eq (congrArg List.length below_none)
  rw [walk_below hlimit hs sorted.length none hlength, below_none]

end walks
end FaultLane.KeysetPage
