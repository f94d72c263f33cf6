import Mathlib.Data.Set.Basic

set_option autoImplicit false

/-!
# Fencing tokens

Resources that have at most one current token each, where a token is handed out once. A
token that has been handed out and is current nowhere is retired, and stays so.
-/
namespace FaultLane.LeaseFence
variable {κ τ : Type*}

structure Fence (κ τ : Type*) where
  current : κ → Option τ
  used : Set τ

namespace Fence
variable {f g : Fence κ τ}

structure Sound (f : Fence κ τ) : Prop where
  used : ∀ k t, f.current k = some t → t ∈ f.used
  unique : ∀ k k' t, f.current k = some t → f.current k' = some t → k = k'

/-- A token that appears is a new one, and appears at one resource. -/
structure Step (f g : Fence κ τ) : Prop where
  used : f.used ⊆ g.used
  granted : ∀ k t, g.current k = some t → f.current k ≠ some t →
    t ∉ f.used ∧ t ∈ g.used ∧ ∀ k', g.current k' = some t → k' = k

def Retired (f : Fence κ τ) (t : τ) : Prop := t ∈ f.used ∧ ∀ k, f.current k ≠ some t

/-- Nothing is granted where every token was there before. -/
theorem Step.of_le (hu : f.used ⊆ g.used)
    (hc : ∀ k t, g.current k = some t → f.current k = some t) : f.Step g :=
  ⟨hu, fun k t hg hf => absurd (hc k t hg) hf⟩

theorem Step.retired (hs : f.Step g) {t : τ} (h : f.Retired t) : g.Retired t := by
  refine ⟨hs.used h.1, fun k hk => ?_⟩
  by_cases hf : f.current k = some t
  · exact h.2 k hf
  · exact (hs.granted k t hk hf).1 h.1

/-- A token that leaves its only resource is retired. -/
theorem Sound.retired_of_left (h : f.Sound) (hs : f.Step g) {k : κ} {t : τ}
    (hf : f.current k = some t) (hg : g.current k ≠ some t) : g.Retired t := by
  refine ⟨hs.used (h.used k t hf), fun k' hk' => ?_⟩
  by_cases hf' : f.current k' = some t
  · obtain rfl := h.unique k k' t hf hf'
    exact hg hk'
  · exact (hs.granted k' t hk' hf').1 (h.used k t hf)

end Fence
end FaultLane.LeaseFence
