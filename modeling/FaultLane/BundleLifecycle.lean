import Mathlib.Tactic.SplitIfs

set_option autoImplicit false

/-!
# The life of one bundle

What a bundle store owes each bundle, whichever requests, crashes and sweeps meet it: a
stored bundle is referenced or tracked, and a referenced one stays stored.
-/
namespace FaultLane.BundleLifecycle

/-- How far the request that owns a bundle got. -/
inductive Stage where
  | unused
  | opening
  | pending
  | held
  | closing
  | erased
  | done
  deriving DecidableEq, Repr

/-- The request will not reference its bundle any more. -/
def Stage.settled : Stage → Bool
  | .closing | .erased | .done => true
  | .unused | .opening | .pending | .held => false

/-- The row that tracks a bundle. It stays young while only time can make it due. -/
inductive Row where
  | absent
  | young
  | retried
  deriving DecidableEq, Repr

def Row.retry : Row → Row
  | .absent => .absent
  | .young | .retried => .retried

theorem Row.retry_ne_absent {r : Row} : r.retry ≠ .absent ↔ r ≠ .absent := by
  cases r <;> simp [Row.retry]

theorem Row.retry_of_ne_absent {r : Row} (h : r ≠ .absent) : r.retry = .retried := by
  cases r with
  | absent => exact absurd rfl h
  | young | retried => rfl

structure Bundle where
  stage : Stage
  row : Row
  stored : Bool
  referenced : Bool
  deriving DecidableEq, Repr

/-- The owner has given the bundle up, so anyone may delete it. -/
def Bundle.Released (b : Bundle) : Prop := b.stage.settled = true ∧ b.referenced = false

def Bundle.Accounted (b : Bundle) : Prop :=
  match b.stage with
  | .unused | .opening => b.row = .absent ∧ b.stored = false ∧ b.referenced = false
  | .pending => b.row = .young ∧ b.referenced = false
  | .held => b.row = .young ∧ b.stored = true ∧ b.referenced = false
  | .closing => b.referenced = false ∧ (b.stored = true → b.row ≠ .absent)
  | .erased => b.referenced = false ∧ b.stored = false
  | .done =>
    (b.referenced = true → b.stored = true ∧ b.row = .absent) ∧
      (b.referenced = false → b.stored = true → b.row ≠ .absent)

/-- What one step of anyone does to one bundle. -/
inductive Move (b : Bundle) : Bundle → Prop where
  | stay : Move b b
  | submit (h : b.stage = .unused) : Move b { b with stage := .opening }
  | register (h : b.stage = .opening) : Move b { b with stage := .pending, row := .young }
  | registerFailed (h : b.stage = .opening) (applied : Bool) :
      Move b { b with stage := .done, row := if applied then .young else b.row }
  | store (h : b.stage = .pending) : Move b { b with stage := .held, stored := true }
  | storeFailed (h : b.stage = .pending) (applied : Bool) :
      Move b { b with stage := .closing, stored := if applied then true else b.stored }
  | close (h : b.stage = .held ∨ b.stage = .closing) : Move b { b with stage := .closing }
  | abandon (h : b.stage ≠ .unused) : Move b { b with stage := .done }
  | commit (h : b.stage = .held) :
      Move b { b with stage := .done, row := .absent, referenced := true }
  | erase (h : b.stage = .closing) : Move b { b with stage := .erased, stored := false }
  | eraseFailed (h : b.stage = .closing) (applied : Bool) :
      Move b { b with stored := if applied then false else b.stored }
  | clear (h : b.stage = .erased) (applied : Bool) :
      Move b { b with stage := .done, row := if applied then .absent else b.row }
  | record (h : b.stage = .closing) (applied : Bool) :
      Move b { b with stage := .done, row := if applied then .retried else b.row }
  | sweep (h : b.Released) (applied : Bool) :
      Move b { b with stored := if applied then false else b.stored }
  | forget (h : b.Released) (hs : b.stored = false) (applied : Bool) :
      Move b { b with row := if applied then .absent else b.row }
  | retry (h : b.Released) (applied : Bool) :
      Move b { b with row := if applied then b.row.retry else b.row }

namespace Bundle
variable {b : Bundle}

theorem Accounted.not_referenced (h : b.Accounted) (hs : b.stage ≠ .done) :
    b.referenced = false := by
  unfold Accounted at h
  cases hstage : b.stage <;> simp only [hstage] at h hs
  case done => exact absurd rfl hs
  case unused | opening => exact h.2.2
  case pending => exact h.2
  case held => exact h.2.2
  case closing | erased => exact h.1

/-- No bundle leaks. -/
theorem Accounted.tracked (h : b.Accounted) (hs : b.stored = true) (hr : b.referenced = false) :
    b.row ≠ .absent := by
  unfold Accounted at h
  cases hstage : b.stage <;> simp only [hstage] at h
  case unused | opening => exact absurd hs (by simp [h.2.1])
  case pending | held => simp [h.1]
  case closing => exact h.2 hs
  case erased => exact absurd hs (by simp [h.2])
  case done => exact h.2 hr hs

/-- No referenced bundle is lost. -/
theorem Accounted.stored (h : b.Accounted) (hr : b.referenced = true) : b.stored = true := by
  by_cases hs : b.stage = .done
  · simp only [Accounted, hs] at h
    exact (h.1 hr).1
  · exact absurd hr (by simp [h.not_referenced hs])

/-- A tracked bundle is released, unless its request is still on its way. -/
theorem Accounted.released (h : b.Accounted) (hr : b.row ≠ .absent) :
    b.Released ∨ (b.row = .young ∧ (b.stage = .pending ∨ b.stage = .held)) := by
  unfold Accounted at h
  cases hstage : b.stage <;> simp only [hstage] at h
  case unused | opening => exact absurd h.1 hr
  case pending | held => exact .inr ⟨h.1, by simp⟩
  case closing | erased => exact .inl ⟨by rw [hstage]; rfl, h.1⟩
  case done =>
    refine .inl ⟨by rw [hstage]; rfl, Bool.eq_false_iff.mpr fun href => ?_⟩
    exact hr (h.1 href).2

theorem Accounted.erased (h : b.Accounted) (hs : b.stage = .erased) : b.stored = false := by
  simp only [Accounted, hs] at h
  exact h.2

theorem Released.accounted (h : b.Released) (he : b.stage = .erased → b.stored = false)
    (ht : b.stored = true → b.row ≠ .absent) : b.Accounted := by
  obtain ⟨hs, hr⟩ := h
  unfold Accounted
  cases hstage : b.stage <;> simp only [hstage, Stage.settled] at hs
  case closing => exact ⟨hr, ht⟩
  case erased => exact ⟨hr, he hstage⟩
  case done => exact ⟨fun h => absurd h (by simp [hr]), fun _ => ht⟩
  all_goals exact absurd hs (by decide)

end Bundle

namespace Move
variable {b b' : Bundle}

theorem released (h : Move b b') (hr : b.Released) : b'.Released := by
  obtain ⟨hs, hr⟩ := hr
  cases h <;> simp_all [Bundle.Released, Stage.settled]

/-- The object of a released bundle does not come back. -/
theorem not_stored (h : Move b b') (hr : b.Released) (hs : b.stored = false) :
    b'.stored = false := by
  obtain ⟨hr, -⟩ := hr
  cases h <;> simp_all [Stage.settled]

theorem accounted (h : Move b b') (hb : b.Accounted) : b'.Accounted := by
  cases h with
  | stay => exact hb
  | submit h => simpa only [Bundle.Accounted, h] using hb
  | register h =>
    simp only [Bundle.Accounted, h] at hb
    exact ⟨rfl, hb.2.2⟩
  | registerFailed h applied =>
    simp only [Bundle.Accounted, h] at hb
    exact ⟨fun hr => absurd hr (by simp [hb.2.2]), fun _ hs => absurd hs (by simp [hb.2.1])⟩
  | store h =>
    simp only [Bundle.Accounted, h] at hb
    exact ⟨hb.1, rfl, hb.2⟩
  | storeFailed h applied =>
    simp only [Bundle.Accounted, h] at hb
    exact ⟨hb.2, fun _ => by simp [hb.1]⟩
  | close h =>
    obtain h | h := h
    · simp only [Bundle.Accounted, h] at hb
      exact ⟨hb.2.2, fun _ => by simp [hb.1]⟩
    · simpa only [Bundle.Accounted, h] using hb
  | abandon h =>
    refine ⟨fun hr => ?_, fun hr hs => hb.tracked hs hr⟩
    by_cases hd : b.stage = .done
    · simp only [Bundle.Accounted, hd] at hb
      exact hb.1 hr
    · exact absurd hr (by simp [hb.not_referenced hd])
  | commit h =>
    simp only [Bundle.Accounted, h] at hb
    exact ⟨fun _ => ⟨hb.2.1, rfl⟩, nofun⟩
  | erase h =>
    simp only [Bundle.Accounted, h] at hb
    exact ⟨hb.1, rfl⟩
  | eraseFailed h applied =>
    simp only [Bundle.Accounted, h] at hb ⊢
    refine ⟨hb.1, fun hs => hb.2 ?_⟩
    cases applied with
    | false => exact hs
    | true => cases hs
  | clear h applied =>
    simp only [Bundle.Accounted, h] at hb
    exact ⟨fun hr => absurd hr (by simp [hb.1]), fun _ hs => absurd hs (by simp [hb.2])⟩
  | record h applied =>
    simp only [Bundle.Accounted, h] at hb
    refine ⟨fun hr => absurd hr (by simp [hb.1]), fun _ hs => ?_⟩
    cases applied with
    | false => exact hb.2 hs
    | true => nofun
  | sweep h applied =>
    cases applied with
    | false => exact hb
    | true => exact Bundle.Released.accounted h (fun _ => rfl) nofun
  | forget h hs applied =>
    exact Bundle.Released.accounted h (fun _ => hs) fun h' => absurd h' (by simp [hs])
  | retry h applied =>
    refine Bundle.Released.accounted h hb.erased fun hs => ?_
    have ht := hb.tracked hs h.2
    cases applied with
    | false => exact ht
    | true => exact Row.retry_ne_absent.mpr ht

end Move
end FaultLane.BundleLifecycle
