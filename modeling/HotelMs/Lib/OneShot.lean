import HotelMs.Lib.Runs

/-!
# Test, then act

Agents test a flag in one step and act in a later one, which sets the flag and
does not test it again. At most one of them acts exactly when each of them acts
while the flag is still unset.
-/

namespace OneShot

open Runs

variable {σ ε ι : Type*}

def AtMostOne (acted : ι → σ → Prop) (s : σ) : Prop := ∀ i j, acted i s → acted j s → i = j

/-- `admitted i` holds from the test that agent `i` passes until it acts. -/
structure TestThenAct (step : σ → ε → σ) (actor : ε → ι) (J used : σ → Prop)
    (admitted acted : ι → σ → Prop) : Prop where
  keeps : ∀ s e, J s → J (step s e)
  admitted_step : ∀ s e i, J s → admitted i (step s e) → admitted i s ∨ ¬used s
  acted_step : ∀ s e i, J s → (acted i (step s e) ↔ acted i s ∨ i = actor e ∧ admitted i s)
  used_step : ∀ s e, J s → (used (step s e) ↔ used s ∨ admitted (actor e) s)
  apart : ∀ s i, admitted i s → ¬acted i s

/-- The flag is set once somebody acted; when it is set for another reason,
nobody is admitted. -/
structure Settled (J used : σ → Prop) (admitted acted : ι → σ → Prop) (s : σ) : Prop where
  inv : J s
  used_of_acted : ∀ i, acted i s → used s
  acted_of_used : used s → (∃ i, acted i s) ∨ ∀ i, ¬admitted i s

variable {step : σ → ε → σ} {actor : ε → ι} {J used : σ → Prop} {admitted acted : ι → σ → Prop}

theorem Settled.start {s : σ} (hJ : J s) (h : ∀ i, ¬admitted i s ∧ ¬acted i s) :
    Settled J used admitted acted s :=
  ⟨hJ, fun i hi => absurd hi (h i).2, fun _ => Or.inr fun i => (h i).1⟩

variable (law : TestThenAct step actor J used admitted acted)

include law

theorem Settled.after {s : σ} (h : Settled J used admitted acted s) (e : ε) :
    Settled J used admitted acted (step s e) := by
  refine ⟨law.keeps s e h.inv, fun i hi => ?_, fun hu => ?_⟩
  · rw [law.used_step s e h.inv]
    rcases (law.acted_step s e i h.inv).mp hi with hbefore | ⟨rfl, hnow⟩
    · exact Or.inl (h.used_of_acted i hbefore)
    · exact Or.inr hnow
  · by_cases hnow : admitted (actor e) s
    · exact Or.inl ⟨actor e, (law.acted_step s e _ h.inv).mpr (Or.inr ⟨rfl, hnow⟩)⟩
    · have hbefore : used s := ((law.used_step s e h.inv).mp hu).resolve_right hnow
      rcases h.acted_of_used hbefore with ⟨i, hi⟩ | hnone
      · exact Or.inl ⟨i, (law.acted_step s e i h.inv).mpr (Or.inl hi)⟩
      · refine Or.inr fun i hi => ?_
        rcases law.admitted_step s e i h.inv hi with hold | hunused
        · exact hnone i hold
        · exact hunused hbefore

theorem atMostOne_step_iff {s : σ} (h : Settled J used admitted acted s)
    (hone : AtMostOne acted s) (e : ε) :
    AtMostOne acted (step s e) ↔ (admitted (actor e) s → ¬used s) := by
  constructor
  · intro hafter hnow hused
    rcases h.acted_of_used hused with ⟨j, hj⟩ | hnone
    · have hboth := hafter j (actor e) ((law.acted_step s e j h.inv).mpr (Or.inl hj))
        ((law.acted_step s e _ h.inv).mpr (Or.inr ⟨rfl, hnow⟩))
      rw [hboth] at hj
      exact law.apart s _ hnow hj
    · exact hnone _ hnow
  · intro hunused i j hi hj
    rcases (law.acted_step s e i h.inv).mp hi with hi | ⟨rfl, hnow⟩
    · rcases (law.acted_step s e j h.inv).mp hj with hj | ⟨rfl, hnow⟩
      · exact hone i j hi hj
      · exact absurd (h.used_of_acted i hi) (hunused hnow)
    · rcases (law.acted_step s e j h.inv).mp hj with hj | ⟨rfl, _⟩
      · exact absurd (h.used_of_acted j hj) (hunused hnow)
      · rfl

/-- In every run, at most one agent ever acts exactly when no agent acts after
the flag was set. -/
theorem always_atMostOne_iff {s : σ} (hJ : J s) (hstart : ∀ i, ¬admitted i s ∧ ¬acted i s)
    (es : List ε) :
    Always step (AtMostOne acted) s es ↔
      Along step (fun s e => admitted (actor e) s → ¬used s) s es := by
  have hany : Along step (fun _ _ => True) s es := along_of_forall fun _ _ _ => trivial
  have hone : AtMostOne acted s := fun i _ hi => absurd hi (hstart i).2
  exact always_iff_along (fun s e hs => hs.after law e)
    (fun s e hs _ h => atMostOne_step_iff law hs h e) hany (Settled.start hJ hstart) hone

end OneShot
