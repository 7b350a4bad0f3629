import Mathlib.Algebra.BigOperators.Intervals
import Mathlib.Algebra.Order.Interval.Finset.SuccPred
import Mathlib.Data.Int.ConditionallyCompleteOrder
import Mathlib.Data.Int.Interval
import Mathlib.Data.Int.SuccPred
import Mathlib.Data.List.Sort

/-!
# Rules that override a default

Each rule applies at some points and has a rank. At a point the applying rule of
the greatest rank decides the value, and the default where no rule applies. The
second part sums such values over an interval of points.
-/

namespace Overrides

section

variable {ρ κ ν : Type*} [LinearOrder κ]

structure Governs (rules : List ρ) (rank : ρ → κ) (applies : ρ → Prop) (r : ρ) : Prop where
  mem : r ∈ rules
  here : applies r
  top : ∀ r' ∈ rules, applies r' → rank r' ≤ rank r

inductive Value (rules : List ρ) (rank : ρ → κ) (applies : ρ → Prop) (value : ρ → ν)
    (default : ν) : ν → Prop
  | ruled {r : ρ} (h : Governs rules rank applies r) :
      Value rules rank applies value default (value r)
  | unruled (h : ∀ r ∈ rules, ¬applies r) : Value rules rank applies value default default

variable {rules : List ρ} {rank : ρ → κ} {applies : ρ → Prop} {value : ρ → ν} {default v v' : ν}

theorem Governs.unique (hinj : ∀ a ∈ rules, ∀ b ∈ rules, rank a = rank b → a = b) {r r' : ρ}
    (h : Governs rules rank applies r) (h' : Governs rules rank applies r') : r = r' :=
  hinj r h.mem r' h'.mem (le_antisymm (h'.top r h.mem h.here) (h.top r' h'.mem h'.here))

theorem Value.unique (hinj : ∀ a ∈ rules, ∀ b ∈ rules, rank a = rank b → a = b)
    (h : Value rules rank applies value default v)
    (h' : Value rules rank applies value default v') : v = v' := by
  cases h with
  | ruled hr =>
    cases h' with
    | ruled hr' => rw [hr.unique hinj hr']
    | unruled hn => exact absurd hr.here (hn _ hr.mem)
  | unruled hn =>
    cases h' with
    | ruled hr' => exact absurd hr'.here (hn _ hr'.mem)
    | unruled => rfl

/-- Sorting the applying rules by falling rank puts the deciding one first. -/
theorem value_of_sorted {before : ρ → ρ → Prop} [DecidableRel before]
    (hbefore : ∀ a b, before a b ↔ rank b ≤ rank a) (p : ρ → Bool) (rules : List ρ)
    (value : ρ → ν) (default : ν) :
    Value rules rank (fun r => p r = true) value default
      (((rules.filter p).insertionSort before).head?.elim default value) := by
  have : Std.Total before := ⟨fun a b => by
    rw [hbefore, hbefore]
    exact le_total _ _⟩
  have : IsTrans ρ before := ⟨fun a b c hab hbc => by
    rw [hbefore] at hab hbc ⊢
    exact hbc.trans hab⟩
  have hmem : ∀ r, r ∈ (rules.filter p).insertionSort before ↔ r ∈ rules ∧ p r = true := by
    intro r
    rw [List.mem_insertionSort, List.mem_filter]
  have hsorted := List.pairwise_insertionSort before (rules.filter p)
  cases hl : (rules.filter p).insertionSort before with
  | nil =>
    refine .unruled fun r hr hp => ?_
    have hin := (hmem r).mpr ⟨hr, hp⟩
    rw [hl] at hin
    cases hin
  | cons r rest =>
    rw [hl] at hmem hsorted
    obtain ⟨hr, hp⟩ := (hmem r).mp (List.mem_cons_self ..)
    refine .ruled ⟨hr, hp, fun r' hr' hp' => ?_⟩
    rcases List.mem_cons.mp ((hmem r').mpr ⟨hr', hp'⟩) with rfl | hrest
    · exact le_rfl
    · exact (hbefore _ _).mp (List.rel_of_pairwise_cons hsorted hrest)

theorem governs_append {new r : ρ} (hnew : ¬applies new) :
    Governs (rules ++ [new]) rank applies r ↔ Governs rules rank applies r := by
  constructor
  · intro h
    refine ⟨?_, h.here, fun r' hr' => h.top r' (List.mem_append_left _ hr')⟩
    rcases List.mem_append.mp h.mem with hmem | hlast
    · exact hmem
    · rw [List.mem_singleton.mp hlast] at h
      exact absurd h.here hnew
  · intro h
    refine ⟨List.mem_append_left _ h.mem, h.here, fun r' hr' hap => ?_⟩
    rcases List.mem_append.mp hr' with hmem | hlast
    · exact h.top r' hmem hap
    · rw [List.mem_singleton.mp hlast] at hap
      exact absurd hap hnew

/-- A further rule decides nothing where it does not apply. -/
theorem value_append {new : ρ} (hnew : ¬applies new)
    (h : Value rules rank applies value default v) :
    Value (rules ++ [new]) rank applies value default v := by
  cases h with
  | ruled hr => exact .ruled ((governs_append hnew).mpr hr)
  | unruled hn =>
    refine .unruled fun r hr => ?_
    rcases List.mem_append.mp hr with hmem | hlast
    · exact hn r hmem
    · rw [List.mem_singleton.mp hlast]
      exact hnew

end

/-! ### Totals over an interval -/

section

variable {ν : Type*} [AddCommMonoid ν]

theorem sum_Ico_split (f : ℤ → ν) {a b c : ℤ} (hab : a ≤ b) (hbc : b ≤ c) :
    ∑ d ∈ Finset.Ico a c, f d = ∑ d ∈ Finset.Ico a b, f d + ∑ d ∈ Finset.Ico b c, f d := by
  rw [← Finset.Ico_union_Ico_eq_Ico hab hbc,
    Finset.sum_union (Finset.Ico_disjoint_Ico_consecutive a b c)]

theorem sum_Ico_first (f : ℤ → ν) {a b : ℤ} (hab : a < b) :
    ∑ d ∈ Finset.Ico a b, f d = f a + ∑ d ∈ Finset.Ico (a + 1) b, f d := by
  have hfirst : a ∉ Finset.Ico (a + 1) b := by
    rw [Finset.mem_Ico]
    omega
  rw [← Finset.insert_Ico_add_one_left_eq_Ico hab, Finset.sum_insert hfirst]

end

end Overrides
