import Mathlib.Data.Option.Basic
import Mathlib.Tactic.SplitIfs

set_option autoImplicit false

/-!
# Fallible computations

What a successful `Except` computation says about its steps.
-/
namespace FaultLane.Fallible
variable {ε α β : Type}

def okOr (o : Option α) (e : ε) : Except ε α :=
  match o with
  | none => .error e
  | some a => .ok a

/-- The early return of a failed check. -/
def refuse (condition : Prop) [Decidable condition] (e : ε) : Except ε Unit :=
  if condition then .error e else .ok ()

theorem bind_eq_ok {x : Except ε α} {f : α → Except ε β} {b : β} :
    x >>= f = .ok b ↔ ∃ a, x = .ok a ∧ f a = .ok b := by
  cases x with
  | error e => exact ⟨nofun, fun ⟨_, h, _⟩ => (nomatch h)⟩
  | ok a => exact ⟨fun h => ⟨a, rfl, h⟩, fun ⟨_, h, hf⟩ => by cases h; exact hf⟩

@[simp] theorem ok_bind (a : α) (f : α → Except ε β) : (Except.ok a >>= f) = f a := rfl

@[simp] theorem error_bind (e : ε) (f : α → Except ε β) :
    ((Except.error e : Except ε α) >>= f) = .error e := rfl

@[simp] theorem pure_eq_ok (a : α) : (pure a : Except ε α) = .ok a := rfl

@[simp] theorem okOr_some (a : α) (e : ε) : okOr (some a) e = .ok a := rfl

@[simp] theorem okOr_none (e : ε) : okOr (none : Option α) e = .error e := rfl

theorem okOr_eq_ok {o : Option α} {e : ε} {a : α} : okOr o e = .ok a ↔ o = some a := by
  cases o with
  | none => exact ⟨nofun, nofun⟩
  | some b => exact ⟨fun h => by cases h; rfl, fun h => by cases h; rfl⟩

theorem refuse_of_not {condition : Prop} [Decidable condition] (h : ¬ condition) (e : ε) :
    refuse condition e = .ok () := if_neg h

theorem refuse_of {condition : Prop} [Decidable condition] (h : condition) (e : ε) :
    refuse condition e = .error e := if_pos h

theorem refuse_eq_ok {condition : Prop} [Decidable condition] {e : ε} {u : Unit} :
    refuse condition e = .ok u ↔ ¬ condition := by
  unfold refuse
  split_ifs with h
  · exact ⟨nofun, fun hn => absurd h hn⟩
  · exact ⟨fun _ => h, fun _ => rfl⟩

/-- Every element passes. -/
def forEach (check : α → Except ε Unit) : List α → Except ε Unit
  | [] => .ok ()
  | a :: rest => do
    check a
    forEach check rest

theorem forEach_eq_ok {check : α → Except ε Unit} {values : List α} :
    forEach check values = .ok () ↔ ∀ a ∈ values, check a = .ok () := by
  induction values with
  | nil => exact ⟨fun _ a ha => absurd ha List.not_mem_nil, fun _ => rfl⟩
  | cons a rest ih =>
    rw [forEach, bind_eq_ok]
    constructor
    · rintro ⟨_, ha, hr⟩ b hb
      rcases List.mem_cons.mp hb with rfl | hb
      · exact ha
      · exact ih.mp hr b hb
    · intro h
      exact ⟨(), h a List.mem_cons_self, ih.mpr fun b hb => h b (List.mem_cons_of_mem _ hb)⟩

end FaultLane.Fallible
