import Mathlib.Algebra.Order.Floor.Ring
import Mathlib.Data.Rat.Floor
import Mathlib.Algebra.Ring.Int.Parity
import Mathlib.Tactic.Linarith

/-!
# Rounding half to even
-/

namespace HalfEven

def halfEven (x : ℚ) : ℤ :=
  if x - ⌊x⌋ < 1 / 2 then ⌊x⌋
  else if 1 / 2 < x - ⌊x⌋ then ⌊x⌋ + 1
  else if Even ⌊x⌋ then ⌊x⌋
  else ⌊x⌋ + 1

variable {x y : ℚ}

theorem halfEven_near (x : ℚ) : x - 1 / 2 ≤ halfEven x ∧ (halfEven x : ℚ) ≤ x + 1 / 2 := by
  have hlow := Int.floor_le x
  have hhigh := Int.lt_floor_add_one x
  unfold halfEven
  split
  next h => exact ⟨by linarith, by linarith⟩
  next h =>
    split
    · push_cast
      exact ⟨by linarith, by linarith⟩
    next h' =>
      split
      · exact ⟨by linarith, by linarith⟩
      · push_cast
        exact ⟨by linarith, by linarith⟩

theorem abs_sub_halfEven_le (x : ℚ) : |x - halfEven x| ≤ 1 / 2 := by
  obtain ⟨hlow, hhigh⟩ := halfEven_near x
  rw [abs_le]
  constructor <;> linarith

/-- What lies half-way is rounded to an even number. -/
theorem even_of_halfway (h : x - 1 / 2 = halfEven x ∨ (halfEven x : ℚ) = x + 1 / 2) :
    Even (halfEven x) := by
  have hlow := Int.floor_le x
  have hhigh := Int.lt_floor_add_one x
  unfold halfEven at h ⊢
  split at h
  next hless =>
    rcases h with h | h
    · linarith
    · linarith
  next hless =>
    split at h
    next hmore =>
      push_cast at h
      rcases h with h | h
      · linarith
      · linarith
    next hmore =>
      rw [if_neg hless, if_neg hmore]
      split
      next heven => exact heven
      next hodd => exact (Int.not_even_iff_odd.mp hodd).add_one

theorem even_le_halfEven {k : ℤ} (hk : Even k) : k ≤ halfEven x ↔ (k : ℚ) - 1 / 2 ≤ x := by
  obtain ⟨hlow, hhigh⟩ := halfEven_near x
  constructor
  · intro h
    have hcast : (k : ℚ) ≤ halfEven x := Int.cast_le.mpr h
    linarith
  · intro h
    by_contra hlt
    have hbelow : halfEven x ≤ k - 1 := by omega
    have hcast : (halfEven x : ℚ) ≤ k - 1 := by exact_mod_cast hbelow
    have htie : x - 1 / 2 = halfEven x := by linarith
    have hsame : (halfEven x : ℚ) = k - 1 := by linarith
    have hint : halfEven x = k - 1 := by exact_mod_cast hsame
    have heven := even_of_halfway (.inl htie)
    rw [hint] at heven
    exact Int.not_even_one (by simpa using hk.sub heven)

theorem halfEven_le_even {k : ℤ} (hk : Even k) : halfEven x ≤ k ↔ x ≤ (k : ℚ) + 1 / 2 := by
  obtain ⟨hlow, hhigh⟩ := halfEven_near x
  constructor
  · intro h
    have hcast : (halfEven x : ℚ) ≤ k := Int.cast_le.mpr h
    linarith
  · intro h
    by_contra hlt
    have habove : k + 1 ≤ halfEven x := by omega
    have hcast : (k : ℚ) + 1 ≤ halfEven x := by exact_mod_cast habove
    have htie : (halfEven x : ℚ) = x + 1 / 2 := by linarith
    have hsame : (halfEven x : ℚ) = k + 1 := by linarith
    have hint : halfEven x = k + 1 := by exact_mod_cast hsame
    have heven := even_of_halfway (.inr htie)
    rw [hint] at heven
    exact Int.not_even_one (by simpa using heven.sub hk)

theorem halfEven_mono (h : x ≤ y) : halfEven x ≤ halfEven y := by
  have hx := (halfEven_near x).2
  have hy := (halfEven_near y).1
  by_contra hlt
  have hnext : halfEven y + 1 ≤ halfEven x := by omega
  have hcast : (halfEven y : ℚ) + 1 ≤ halfEven x := by exact_mod_cast hnext
  have hsame : x = y := by linarith
  rw [hsame] at hlt
  exact hlt le_rfl

@[simp] theorem halfEven_intCast (k : ℤ) : halfEven k = k := by
  unfold halfEven
  rw [Int.floor_intCast, sub_self, if_pos (by norm_num)]

theorem halfEven_le {k : ℤ} (h : x ≤ k) : halfEven x ≤ k := by
  have hmono := halfEven_mono h
  rwa [halfEven_intCast] at hmono

theorem le_halfEven {k : ℤ} (h : k ≤ x) : k ≤ halfEven x := by
  have hmono := halfEven_mono h
  rwa [halfEven_intCast] at hmono

/-- The nearest whole number, and the even one of two. -/
theorem halfEven_eq {k : ℤ} (hnear : |x - k| ≤ 1 / 2) (htie : |x - k| = 1 / 2 → Even k) :
    halfEven x = k := by
  obtain ⟨hlow, hhigh⟩ := halfEven_near x
  obtain ⟨hlow', hhigh'⟩ := abs_le.mp hnear
  rcases lt_trichotomy (halfEven x) k with hless | hsame | hmore
  · have hnext : halfEven x + 1 ≤ k := by omega
    have hcast : (halfEven x : ℚ) + 1 ≤ k := by exact_mod_cast hnext
    have hk := htie (by rw [abs_eq (by norm_num)]; right; linarith)
    exact le_antisymm hless.le ((even_le_halfEven hk).mpr (by linarith))
  · exact hsame
  · have hnext : k + 1 ≤ halfEven x := by omega
    have hcast : (k : ℚ) + 1 ≤ halfEven x := by exact_mod_cast hnext
    have hk := htie (by rw [abs_eq (by norm_num)]; left; linarith)
    exact le_antisymm ((halfEven_le_even hk).mpr (by linarith)) hmore.le

@[simp] theorem halfEven_neg (x : ℚ) : halfEven (-x) = -halfEven x := by
  have hnear := abs_sub_halfEven_le x
  have hflip : |-x - ((-halfEven x : ℤ) : ℚ)| = |x - halfEven x| := by
    rw [← abs_neg]
    push_cast
    ring_nf
  refine halfEven_eq (hflip.le.trans hnear) fun htie => ?_
  rw [hflip, abs_eq (by norm_num)] at htie
  refine (even_of_halfway ?_).neg
  rcases htie with h | h
  · exact .inl (by linarith)
  · exact .inr (by linarith)

end HalfEven
