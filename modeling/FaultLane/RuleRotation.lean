import FaultLane.JobQueue
import FaultLane.KeyedTable
import FaultLane.KeysetPage
import FaultLane.SortDedup
import FaultLane.TransitionSystem
import Mathlib.Data.Prod.Lex

set_option autoImplicit false

/-!
# The rotation of alert rules

`evaluate_rules_once` call after call over the rules of all tenants, with the writes of the rules
between its statements. The rule whose turn is the oldest comes first, and a rule gets a new turn
when its evaluation has ended. What an evaluation does is left out, but for whether it fails.
-/
namespace FaultLane.RuleRotation
open KeyedTable TransitionSystem SortDedup
open JobQueue (Uuid)

def alertRulePageSize : Nat := 1000

/-- A rule with the state of its integration. -/
structure Rule where
  id : Uuid
  enabled : Bool
  integrationEnabled : Bool
  updatedAt : Nat
  lastEvaluatedAt : Option Nat
  deriving DecidableEq, Repr

/-- `r.enabled AND i.enabled` -/
def Rule.selected (r : Rule) : Bool := r.enabled && r.integrationEnabled

/-- `r.last_evaluated_at NULLS FIRST, r.id` -/
def Rule.turn (r : Rule) : Nat ×ₗ Uuid := toLex (r.lastEvaluatedAt.elim 0 (· + 1), r.id)

/-- What a page keeps of a rule. -/
structure RuleEvaluation where
  id : Uuid
  updatedAt : Nat
  deriving DecidableEq, Repr

/-- The page of a call holds what is left of it. The calls that have ended are counted, and each
evaluation that is completed is kept with the number of its call. -/
structure State where
  now : Nat
  rules : Table Rule.id
  page : Option (List RuleEvaluation)
  calls : Nat
  completed : List (Nat × Uuid)

/-- The rules that are selected, in the order of their turns. -/
def waiting (rules : Table Rule.id) : List Rule :=
  sortBy Rule.turn (rules.rows.filter Rule.selected)

section steps
variable (fails : Uuid → Bool) (s : State)

/-- The first statement of a call. -/
def selectRules : Option State :=
  match s.page with
  | some _ => none
  | none =>
    some { s with
      page := some (((waiting s.rules).take alertRulePageSize).map fun r => ⟨r.id, r.updatedAt⟩) }

/-- The update behind an evaluation, which leaves a rule alone that is not as it was selected. -/
def Rule.marked (r : Rule) (updatedAt now : Nat) : Rule :=
  if r.updatedAt = updatedAt ∧ r.selected then { r with lastEvaluatedAt := some now } else r

theorem Rule.id_marked (r : Rule) (updatedAt now : Nat) : (r.marked updatedAt now).id = r.id := by
  unfold Rule.marked
  split_ifs <;> rfl

/-- The next rule of the page, whose failure ends the call. -/
def evaluateRule : Option State :=
  match s.page with
  | some (e :: rest) =>
    if fails e.id then some { s with page := none, calls := s.calls + 1 }
    else
      some { s with
        now := s.now + 1
        rules := s.rules.modify e.id (·.marked e.updatedAt (s.now + 1)) fun r =>
          r.id_marked e.updatedAt (s.now + 1)
        page := some rest
        completed := (s.calls, e.id) :: s.completed }
  | _ => none

/-- The end of a call that has evaluated its page. -/
def finishCall : Option State :=
  match s.page with
  | some [] => some { s with page := none, calls := s.calls + 1 }
  | _ => none

/-- A rule that is created, changed, enabled or disabled, by itself or with its integration. -/
def writeRule (r : Rule) : State := { s with rules := (s.rules.delete r.id).insert r }

end steps

inductive Action where
  | tick (seconds : Nat)
  | selectRules
  | evaluateRule
  | finishCall
  | writeRule (rule : Rule)
  deriving DecidableEq, Repr

/-- A run in which the evaluations of some rules fail on every attempt. -/
def step (fails : Uuid → Bool) (s : State) : Action → Option State
  | .tick seconds => some { s with now := s.now + seconds }
  | .selectRules => selectRules s
  | .evaluateRule => evaluateRule fails s
  | .finishCall => finishCall s
  | .writeRule rule => some (writeRule s rule)

/-- The time of the last evaluation so far. -/
def lastTime (rules : Table Rule.id) : Nat :=
  (rules.rows.map fun r => r.lastEvaluatedAt.getD 0).foldr max 0

/-- Before the first call, at some time after all evaluations. -/
def State.start (rules : Table Rule.id) (later : Nat) : State :=
  ⟨lastTime rules + later, rules, none, 0, []⟩

/-- One rule stays as it is, and no other one is added to those that are selected. -/
def Settled (ruleId : Uuid) (_ : State) : Action → Prop
  | .writeRule rule => rule.selected = false ∧ rule.id ≠ ruleId
  | _ => True

instance (ruleId : Uuid) (s : State) : DecidablePred (Settled ruleId s) := fun a => by
  cases a <;> unfold Settled <;> infer_instance

/-- The calls in which each of so many rules should have had its turn. -/
def window (rules : Table Rule.id) : Nat :=
  (rules.rows.countP Rule.selected + (alertRulePageSize - 1)) / alertRulePageSize + 1

/-- The rule has been evaluated in any so many consecutive calls. -/
def State.Rotates (s : State) (ruleId : Uuid) (calls : Nat) : Prop :=
  ∀ first, first + calls ≤ s.calls →
    ∃ call, first ≤ call ∧ call < first + calls ∧ (call, ruleId) ∈ s.completed

/-! ## Turns -/

section turns
variable {rules : Table Rule.id} {r x : Rule}

theorem mem_waiting : r ∈ waiting rules ↔ r ∈ rules ∧ r.selected = true := by
  rw [waiting, sortBy, List.mem_insertionSort, List.mem_filter, Table.mem_rows]

theorem turn_injOn (hr : r ∈ rules) (hx : x ∈ rules) (h : r.turn = x.turn) : r = x := by
  have hid : r.id = x.id := congrArg (fun turn => (ofLex turn).2) h
  exact Table.eq_of_key_eq hr hx hid

/-- No two rules have one turn. -/
theorem pairwise_waiting (rules : Table Rule.id) :
    (waiting rules).Pairwise fun a b => a.turn < b.turn := by
  have hle : (waiting rules).Pairwise fun a b => a.turn ≤ b.turn := pairwise_sortBy _
  have hnodup : (waiting rules).Nodup :=
    (List.perm_insertionSort _ _).nodup_iff.mpr
      ((List.Nodup.of_map Rule.id rules.unique).sublist List.filter_sublist)
  refine (hle.and hnodup).imp_of_mem fun ha hb hab => lt_of_le_of_ne hab.1 fun heq => hab.2 ?_
  exact turn_injOn (mem_waiting.mp ha).1 (mem_waiting.mp hb).1 heq

theorem lt_turn {t : Nat} (hlast : ∀ u ∈ x.lastEvaluatedAt, u < t) :
    x.turn < ({ r with lastEvaluatedAt := some t } : Rule).turn := by
  have hlt : x.lastEvaluatedAt.elim 0 (· + 1) < t + 1 := by
    cases hx : x.lastEvaluatedAt with
    | none => exact Nat.succ_pos t
    | some u => exact Nat.succ_lt_succ (hlast u hx)
  exact Prod.Lex.toLex_lt_toLex.mpr (.inl hlt)

theorem marked_cases (r : Rule) (updatedAt now : Nat) :
    (r.updatedAt = updatedAt ∧ r.selected = true ∧
        r.marked updatedAt now = { r with lastEvaluatedAt := some now }) ∨
      ¬(r.updatedAt = updatedAt ∧ r.selected = true) ∧ r.marked updatedAt now = r := by
  unfold Rule.marked
  split_ifs with h
  · exact .inl ⟨h.1, h.2, rfl⟩
  · exact .inr ⟨h, rfl⟩

theorem selected_marked (r : Rule) (updatedAt now : Nat) :
    (r.marked updatedAt now).selected = r.selected := by
  unfold Rule.marked
  split_ifs <;> rfl

end turns

/-! ## Counting rules -/

section counts
variable {α : Type} {p q : α → Bool} {f : α → α} {l : List α}

theorem countP_map_le (h : ∀ a ∈ l, q (f a) = true → p a = true) :
    (l.map f).countP q ≤ l.countP p := by
  rw [List.countP_map]
  exact List.countP_mono_left fun a ha hq => h a ha hq

theorem countP_map_lt (h : ∀ a ∈ l, q (f a) = true → p a = true) {b : α} (hb : b ∈ l)
    (hp : p b = true) (hq : q (f b) = false) : (l.map f).countP q < l.countP p := by
  obtain ⟨front, back, rfl⟩ := List.append_of_mem hb
  have hfront : (front.map f).countP q ≤ front.countP p :=
    countP_map_le fun a ha => h a (List.mem_append_left _ ha)
  have hback : (back.map f).countP q ≤ back.countP p :=
    countP_map_le fun a ha => h a (List.mem_append_right _ (List.mem_cons_of_mem b ha))
  rw [List.map_append, List.map_cons, List.countP_append, List.countP_append,
    List.countP_cons_of_pos hp, List.countP_cons_of_neg (Bool.eq_false_iff.mp hq)]
  omega

end counts

/-- The selected rules before another one that are not on what is left of a page. -/
def State.ahead (s : State) (x : Rule) (page : List RuleEvaluation) : Nat :=
  s.rules.rows.countP fun r => r.selected && (r.turn < x.turn && r.id ∉ page.map RuleEvaluation.id)

end FaultLane.RuleRotation
