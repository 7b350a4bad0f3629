import Mathlib.Data.List.Basic

/-!
# Runs of a deterministic step function

A system is a step function from a state and an event to the next state. A run
is a list of events taken from a start state. `Along` states what each event
satisfies in the state it is taken in, `Always` what each state on the way
satisfies, the first included. The rules below turn facts about one step into
facts about every run.
-/

namespace Runs

variable {σ ε : Type*} (step : σ → ε → σ)

/-- The state after the events, taken left to right. -/
def run (s : σ) (es : List ε) : σ := es.foldl step s

/-- Every event satisfies `P` in the state it is taken in. -/
def Along (P : σ → ε → Prop) : σ → List ε → Prop
  | _, [] => True
  | s, e :: es => P s e ∧ Along P (step s e) es

/-- Every state the run passes through satisfies `I`. -/
def Always (I : σ → Prop) : σ → List ε → Prop
  | s, [] => I s
  | s, e :: es => I s ∧ Always I (step s e) es

instance (P : σ → ε → Prop) [∀ s e, Decidable (P s e)] :
    ∀ s es, Decidable (Along step P s es)
  | _, [] => isTrue trivial
  | s, e :: es =>
    have := instDecidableAlong P (step s e) es
    inferInstanceAs (Decidable (_ ∧ _))

instance (I : σ → Prop) [∀ s, Decidable (I s)] : ∀ s es, Decidable (Always step I s es)
  | s, [] => inferInstanceAs (Decidable (I s))
  | s, e :: es =>
    have := instDecidableAlways I (step s e) es
    inferInstanceAs (Decidable (_ ∧ _))

variable {step} {P Q : σ → ε → Prop} {I J : σ → Prop}

@[simp] theorem run_nil (s : σ) : run step s [] = s := rfl

@[simp] theorem run_cons (s : σ) (e : ε) (es : List ε) :
    run step s (e :: es) = run step (step s e) es := rfl

theorem run_append (s : σ) (es es' : List ε) :
    run step s (es ++ es') = run step (run step s es) es' := by
  simp only [run, List.foldl_append]

@[simp] theorem along_nil (s : σ) : Along step P s [] := trivial

@[simp] theorem along_cons (s : σ) (e : ε) (es : List ε) :
    Along step P s (e :: es) ↔ P s e ∧ Along step P (step s e) es := Iff.rfl

theorem Along.mono (h : ∀ s e, P s e → Q s e) {s : σ} {es : List ε}
    (hP : Along step P s es) : Along step Q s es := by
  induction es generalizing s with
  | nil => trivial
  | cons e es ih => exact ⟨h s e hP.1, ih hP.2⟩

theorem along_congr (h : ∀ s e, P s e ↔ Q s e) {s : σ} {es : List ε} :
    Along step P s es ↔ Along step Q s es := by
  constructor
  · exact Along.mono fun t e => (h t e).mp
  · exact Along.mono fun t e => (h t e).mpr

theorem Always.mono (h : ∀ s, I s → J s) {s : σ} {es : List ε} (hI : Always step I s es) :
    Always step J s es := by
  induction es generalizing s with
  | nil => exact h s hI
  | cons e es ih => exact ⟨h s hI.1, ih hI.2⟩

theorem along_of_forall {s : σ} {es : List ε} (h : ∀ s, ∀ e ∈ es, P s e) :
    Along step P s es := by
  induction es generalizing s with
  | nil => trivial
  | cons e es ih =>
    exact ⟨h s e (List.mem_cons_self ..), ih fun t x hx => h t x (List.mem_cons_of_mem _ hx)⟩

theorem along_and {s : σ} {es : List ε} :
    Along step (fun t e => P t e ∧ Q t e) s es ↔ Along step P s es ∧ Along step Q s es := by
  induction es generalizing s with
  | nil => simp
  | cons e es ih =>
    simp only [along_cons, ih]
    exact ⟨fun h => ⟨⟨h.1.1, h.2.1⟩, h.1.2, h.2.2⟩, fun h => ⟨⟨h.1.1, h.2.1⟩, h.1.2, h.2.2⟩⟩

theorem Always.head {s : σ} {es : List ε} (h : Always step I s es) : I s := by
  cases es with
  | nil => exact h
  | cons e es => exact h.1

theorem Always.last {s : σ} {es : List ε} (h : Always step I s es) : I (run step s es) := by
  induction es generalizing s with
  | nil => exact h
  | cons e es ih => exact ih h.2

/-- Induction rule: what every admitted step keeps, every admitted run keeps. -/
theorem run_invariant (hstep : ∀ s e, I s → P s e → I (step s e)) {s : σ} {es : List ε}
    (hI : I s) (hP : Along step P s es) : I (run step s es) := by
  induction es generalizing s with
  | nil => exact hI
  | cons e es ih => exact ih (hstep s e hI hP.1) hP.2

/-- What an invariant implies of every event holds along every run. -/
theorem along_of_invariant (hstep : ∀ s e, I s → I (step s e)) (h : ∀ s e, I s → P s e) {s : σ}
    {es : List ε} (hI : I s) : Along step P s es := by
  induction es generalizing s with
  | nil => trivial
  | cons e es ih => exact ⟨h s e hI, ih (hstep s e hI)⟩

theorem always_of_along (hstep : ∀ s e, I s → P s e → I (step s e)) {s : σ} {es : List ε}
    (hI : I s) (hP : Along step P s es) : Always step I s es := by
  induction es generalizing s with
  | nil => exact hI
  | cons e es ih => exact ⟨hI, ih (hstep s e hI hP.1) hP.2⟩

/-- When, under a background invariant `J`, a step from a good state ends in a
good state exactly if it satisfies `P`, a run stays good exactly if each of its
steps satisfies `P`. Only runs of `Q` steps count. -/
theorem always_iff_along (hJ : ∀ s e, J s → J (step s e))
    (hstep : ∀ s e, J s → Q s e → I s → (I (step s e) ↔ P s e)) {s : σ} {es : List ε}
    (hQ : Along step Q s es) (hj : J s) (hI : I s) : Always step I s es ↔ Along step P s es := by
  induction es generalizing s with
  | nil => exact ⟨fun _ => trivial, fun _ => hI⟩
  | cons e es ih =>
    have hs := hstep s e hj hQ.1 hI
    constructor
    · intro h
      have hI' : I (step s e) := h.2.head
      exact ⟨hs.mp hI', (ih hQ.2 (hJ s e hj) hI').mp h.2⟩
    · intro h
      exact ⟨hI, (ih hQ.2 (hJ s e hj) (hs.mpr h.1)).mpr h.2⟩

/-- The same for a demand `Q` on the steps beside the one on the states. -/
theorem always_and_along_iff {Q : σ → ε → Prop}
    (hstep : ∀ s e, I s → (I (step s e) ∧ Q s e ↔ P s e)) {s : σ} {es : List ε} :
    Always step I s es ∧ Along step Q s es ↔ I s ∧ Along step P s es := by
  induction es generalizing s with
  | nil => exact Iff.rfl
  | cons e es ih =>
    constructor
    · intro h
      obtain ⟨⟨hI, hrest⟩, hq, hqs⟩ := h
      have ht := ih.mp ⟨hrest, hqs⟩
      exact ⟨hI, (hstep s e hI).mp ⟨ht.1, hq⟩, ht.2⟩
    · intro h
      obtain ⟨hI, hp, hps⟩ := h
      obtain ⟨hI', hq⟩ := (hstep s e hI).mpr hp
      obtain ⟨hrest, hqs⟩ := ih.mpr ⟨hI', hps⟩
      exact ⟨⟨hI, hrest⟩, hq, hqs⟩

/-- Once lost, `I` stays lost: then its last state decides the whole run. -/
theorem run_iff_always (hback : ∀ s e, J s → I (step s e) → I s)
    (hJ : ∀ s e, J s → J (step s e)) {s : σ} {es : List ε} (hj : J s) :
    I (run step s es) ↔ Always step I s es := by
  induction es generalizing s with
  | nil => exact Iff.rfl
  | cons e es ih =>
    rw [run_cons, ih (hJ s e hj)]
    constructor
    · intro h
      exact ⟨hback s e hj h.head, h⟩
    · exact fun h => h.2

/-! ### What never happens after something else -/

theorem along_append {s : σ} {es es' : List ε} :
    Along step P s (es ++ es') ↔ Along step P s es ∧ Along step P (run step s es) es' := by
  induction es generalizing s with
  | nil => simp only [List.nil_append, along_nil, run_nil, true_and]
  | cons e es ih =>
    rw [List.cons_append, along_cons, along_cons, run_cons, ih, and_assoc]

theorem along_iff_split {s : σ} {es : List ε} :
    Along step P s es ↔ ∀ pre e suf, es = pre ++ e :: suf → P (run step s pre) e := by
  induction es generalizing s with
  | nil =>
    refine iff_of_true trivial fun pre e suf he => ?_
    cases pre <;> cases he
  | cons x es ih =>
    rw [along_cons, ih]
    constructor
    · intro h pre e suf he
      cases pre with
      | nil =>
        obtain ⟨rfl, rfl⟩ : x = e ∧ es = suf := by simpa using he
        exact h.1
      | cons y pre =>
        obtain ⟨rfl, rfl⟩ : x = y ∧ es = pre ++ e :: suf := by simpa using he
        exact h.2 pre e suf rfl
    · intro h
      refine ⟨h [] x es rfl, fun pre e suf he => ?_⟩
      exact h (x :: pre) e suf (by rw [he, List.cons_append])

theorem run_eq_of_along {β : Type*} {f : σ → β} (hJ : ∀ s e, J s → J (step s e))
    (h : ∀ s e, J s → P s e → f (step s e) = f s) {s : σ} {es : List ε} (hj : J s)
    (hP : Along step P s es) : f (run step s es) = f s := by
  induction es generalizing s with
  | nil => rfl
  | cons e es ih => exact (ih (hJ s e hj) hP.2).trans (h s e hj hP.1)

variable (step P) in
/-- A run has no step with `P`, or it has a last one. -/
theorem along_not_or_last (s : σ) (es : List ε) :
    Along step (fun t e => ¬P t e) s es ∨ ∃ pre e suf, es = pre ++ e :: suf ∧
      P (run step s pre) e ∧ Along step (fun t e => ¬P t e) (run step s (pre ++ [e])) suf := by
  induction es generalizing s with
  | nil => exact Or.inl trivial
  | cons e es ih =>
    rcases ih (step s e) with hnone | ⟨pre, x, suf, rfl, hx, hsuf⟩
    · by_cases he : P s e
      · exact Or.inr ⟨[], e, es, rfl, he, hnone⟩
      · exact Or.inl ⟨he, hnone⟩
    · exact Or.inr ⟨e :: pre, x, suf, rfl, hx, hsuf⟩

variable (step) in
/-- After a state with `C` no state of the run has `D`. -/
def NeverAfter (C D : σ → Prop) (s : σ) (es : List ε) : Prop :=
  ∀ pre mid suf, es = pre ++ mid ++ suf → C (run step s pre) → ¬D (run step s (pre ++ mid))

/-- When `P` says of a step that it keeps every `C i`, and a step without it
leads from some `C i` straight to `D i`, then `P` along the run is exactly what
keeps every `D i` from following `C i`. -/
theorem neverAfter_iff_along {ι : Type*} {C D : ι → σ → Prop} (hdisj : ∀ i s, C i s → ¬D i s)
    (hkeep : ∀ i s e, P s e → C i s → C i (step s e))
    (hlose : ∀ s e, ¬P s e → ∃ i, C i s ∧ D i (step s e)) {s : σ} {es : List ε} :
    (∀ i, NeverAfter step (C i) (D i) s es) ↔ Along step P s es := by
  constructor
  · intro h
    rw [along_iff_split]
    intro pre e suf he
    by_contra hP
    obtain ⟨i, hC, hD⟩ := hlose _ e hP
    have hes : es = pre ++ [e] ++ suf := by rw [he, List.append_assoc, List.singleton_append]
    refine h i pre [e] suf hes hC ?_
    rw [run_append]
    exact hD
  · intro h i pre mid suf he hC
    rw [he, along_append, along_append] at h
    rw [run_append]
    exact hdisj i _ (run_invariant (fun t x hc hp => hkeep i t x hp hc) hC h.1.2)

end Runs
