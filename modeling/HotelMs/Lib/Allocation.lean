import Mathlib.Logic.Basic
import Mathlib.Data.Set.Basic

/-!
# Exclusive allocation

`held r h` says that the holder `h` holds the resource `r`. An allocation is
exclusive when no resource has two holders. Letting go never breaks this, and
taking resources keeps it exactly when nobody else holds one of them.
-/

namespace Allocation

variable {ρ η : Type*}

def Exclusive (held : ρ → η → Prop) : Prop :=
  ∀ r h h', held r h → held r h' → h = h'

/-- The allocation in which `h` also takes every resource of `S`. -/
def take (held : ρ → η → Prop) (S : Set ρ) (h : η) : ρ → η → Prop :=
  fun r h' => held r h' ∨ (r ∈ S ∧ h' = h)

/-- `S` is free for `h`: no other holder has one of its resources. -/
def FreeFor (held : ρ → η → Prop) (S : Set ρ) (h : η) : Prop :=
  ∀ r ∈ S, ∀ h', held r h' → h' = h

variable {held held' : ρ → η → Prop}

theorem Exclusive.mono (hx : Exclusive held) (hsub : ∀ r h, held' r h → held r h) :
    Exclusive held' :=
  fun r h h' h₁ h₂ => hx r h h' (hsub r h h₁) (hsub r h' h₂)

theorem exclusive_take_iff (S : Set ρ) (h : η) :
    Exclusive (take held S h) ↔ Exclusive held ∧ FreeFor held S h := by
  constructor
  · intro hx
    refine ⟨hx.mono fun r h' hr => Or.inl hr, fun r hr h' hh => ?_⟩
    exact hx r h' h (Or.inl hh) (Or.inr ⟨hr, rfl⟩)
  · rintro ⟨hx, hf⟩ r h₁ h₂ (h₁' | ⟨hr, rfl⟩) (h₂' | ⟨hr', rfl⟩)
    · exact hx r h₁ h₂ h₁' h₂'
    · exact hf r hr' h₁ h₁'
    · exact (hf r hr h₂ h₂').symm
    · rfl

end Allocation
