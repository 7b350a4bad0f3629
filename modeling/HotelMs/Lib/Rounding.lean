import Mathlib.Algebra.Order.Floor.Ring
import Mathlib.Data.Rat.Floor
import Mathlib.Algebra.Order.BigOperators.Group.List
import Mathlib.Tactic.Linarith
import Mathlib.Tactic.Ring
import Mathlib.Tactic.GCongr
import Mathlib.Tactic.Positivity

/-!
# Rounding

Toward zero, and how far the rounding of every addition carries a sum away.
-/

namespace Rounding

/-! ### Toward zero -/

def truncate (x : ℚ) : ℤ := if 0 ≤ x then ⌊x⌋ else ⌈x⌉

theorem truncate_of_nonneg {x : ℚ} (h : 0 ≤ x) : truncate x = ⌊x⌋ := if_pos h

theorem truncate_nonneg {x : ℚ} (h : 0 ≤ x) : 0 ≤ truncate x := by
  rw [truncate_of_nonneg h]
  exact Int.floor_nonneg.mpr h

theorem truncate_nonpos {x : ℚ} (h : x < 0) : truncate x ≤ 0 := by
  unfold truncate
  rw [if_neg (not_le.mpr h)]
  exact Int.ceil_le.mpr (by rw [Int.cast_zero]; exact h.le)

theorem truncate_mono {x y : ℚ} (hxy : x ≤ y) : truncate x ≤ truncate y := by
  by_cases hx : 0 ≤ x
  · rw [truncate_of_nonneg hx, truncate_of_nonneg (hx.trans hxy)]
    exact Int.floor_mono hxy
  · by_cases hy : 0 ≤ y
    · exact (truncate_nonpos (not_le.mp hx)).trans (truncate_nonneg hy)
    · unfold truncate
      rw [if_neg hx, if_neg hy]
      exact Int.ceil_mono hxy

@[simp] theorem truncate_intCast (i : ℤ) : truncate i = i := by
  unfold truncate
  rw [Int.floor_intCast, Int.ceil_intCast, ite_self]

theorem truncate_le {x : ℚ} {i : ℤ} (h : x ≤ i) : truncate x ≤ i := by
  have hmono : truncate x ≤ truncate i := truncate_mono h
  rwa [truncate_intCast] at hmono

/-! ### Sums of rounded additions -/

section

variable {α γ : Type*} {value : γ → ℚ} {add : γ → γ → γ} {term : α → γ} {exact : α → ℚ}
  {bound δ ε : ℚ}

/-- Each term is off by `ε` and each addition by `δ`, as long as the partial sums
stay below the bound. -/
theorem foldl_add_near (hδ : 0 ≤ δ) (hε : 0 ≤ ε)
    (hadd : ∀ x y, |value x + value y| ≤ 2 * bound →
      |value (add x y) - (value x + value y)| ≤ δ)
    {xs : List α} (hterm : ∀ a ∈ xs, |value (term a) - exact a| ≤ ε) {x : γ} {q e : ℚ}
    (hx : |value x - q| ≤ e) (hbound : |q| + (xs.map fun a => |exact a|).sum ≤ bound)
    (he : e + xs.length * (δ + ε) ≤ bound) :
    |value (xs.foldl (fun acc a => add acc (term a)) x) - (q + (xs.map exact).sum)| ≤
      e + xs.length * (δ + ε) := by
  induction xs generalizing x q e with
  | nil =>
    simp only [List.foldl_nil, List.map_nil, List.sum_nil, add_zero, List.length_nil,
      Nat.cast_zero, zero_mul]
    exact hx
  | cons a xs ih =>
    rw [List.map_cons, List.sum_cons] at hbound
    rw [List.length_cons, Nat.cast_add, Nat.cast_one] at he
    have hrest : 0 ≤ (xs.map fun a => |exact a|).sum := by
      refine List.sum_nonneg fun v hv => ?_
      obtain ⟨b, _, rfl⟩ := List.mem_map.mp hv
      exact abs_nonneg _
    have hlen : 0 ≤ (xs.length : ℚ) * (δ + ε) :=
      mul_nonneg (Nat.cast_nonneg _) (add_nonneg hδ hε)
    have hsplit : ((xs.length : ℚ) + 1) * (δ + ε) = xs.length * (δ + ε) + δ + ε := by ring
    rw [hsplit] at he
    have ha := abs_le.mp (hterm a (List.mem_cons_self ..))
    have hx' := abs_le.mp hx
    have hq := abs_add_le q (exact a)
    have hqa := abs_le.mp (hq.trans (by linarith : |q| + |exact a| ≤ bound))
    have hsum : |value x + value (term a)| ≤ 2 * bound := by
      rw [abs_le]
      constructor <;> linarith
    have hstep := abs_le.mp (hadd x (term a) hsum)
    have hnext : |value (add x (term a)) - (q + exact a)| ≤ e + δ + ε := by
      rw [abs_le]
      constructor <;> linarith
    have hfinal := ih (fun b hb => hterm b (List.mem_cons_of_mem _ hb)) hnext
      (by linarith) (by linarith)
    rw [List.foldl_cons, List.map_cons, List.sum_cons, ← add_assoc, List.length_cons,
      Nat.cast_add, Nat.cast_one, hsplit]
    refine hfinal.trans (le_of_eq ?_)
    ring

/-- What one rounded multiplication makes of a factor that is off by `e`. -/
theorem mul_near {x y z n u e : ℚ} (hu : 0 ≤ u) (hn : 0 ≤ n) (hx : |x - y| ≤ e)
    (hz : |z - x * n| ≤ u * (1 + |x * n|)) :
    |z - y * n| ≤ e * n + u * (1 + |y * n| + e * n) := by
  have hmul : |x * n - y * n| ≤ e * n := by
    rw [← sub_mul, abs_mul, abs_of_nonneg hn]
    exact mul_le_mul_of_nonneg_right hx hn
  have habs : |x * n| ≤ |y * n| + e * n := by
    have htri := abs_add_le (x * n - y * n) (y * n)
    rw [sub_add_cancel] at htri
    linarith
  have hround : u * (1 + |x * n|) ≤ u * (1 + |y * n| + e * n) :=
    mul_le_mul_of_nonneg_left (by linarith) hu
  have htri := abs_sub_le z (x * n) (y * n)
  linarith

/-- A factor and its two products, each rounded. -/
theorem mul_mul_near {p q r b n m u : ℚ} (hu : 0 ≤ u) (hu' : u ≤ 1 / 3) (hn : 1 ≤ n) (hm : 1 ≤ m)
    (hp : |p - b| ≤ u * (1 + |b|)) (hq : |q - p * n| ≤ u * (1 + |p * n|))
    (hr : |r - q * m| ≤ u * (1 + |q * m|)) :
    |r - b * n * m| ≤ 5 * u * (n * m + |b * n * m|) := by
  have hn₀ : 0 ≤ n := le_trans zero_le_one hn
  have hm₀ : 0 ≤ m := le_trans zero_le_one hm
  have hbn : |b * n| = |b| * n := by rw [abs_mul, abs_of_nonneg hn₀]
  have hbnm : |b * n * m| = |b| * n * m := by rw [abs_mul, abs_of_nonneg hm₀, hbn]
  have hfirst := mul_near hu hn₀ hp hq
  have hsecond := mul_near hu hm₀ hfirst hr
  rw [hbn, hbnm] at hsecond
  rw [hbnm]
  -- with `n + |b| n` for every number in sight
  have hone : 1 + |b| * n ≤ n + |b| * n := by linarith
  have hwhole : 0 ≤ n + |b| * n := by positivity
  have herror : u * (1 + |b|) * n + u * (1 + |b| * n + u * (1 + |b|) * n) ≤
      3 * u * (n + |b| * n) := by
    have hsquare : u * (u * (n + |b| * n)) ≤ u * (1 * (n + |b| * n)) := by gcongr; linarith
    have hlin : u * (1 + |b| * n) ≤ u * (n + |b| * n) := mul_le_mul_of_nonneg_left hone hu
    linarith
  have hproduct : 1 ≤ n * m := one_le_mul_of_one_le_of_one_le hn hm
  have hcarried := mul_le_mul_of_nonneg_right herror hm₀
  have hlast : u * (1 + |b| * n * m + 3 * u * (n + |b| * n) * m) ≤
      u * (2 * ((n + |b| * n) * m)) := by
    refine mul_le_mul_of_nonneg_left ?_ hu
    have hthird : 3 * u * ((n + |b| * n) * m) ≤ 1 * ((n + |b| * n) * m) := by
      gcongr
      linarith
    linarith
  have hmono : u * (1 + |b| * n * m + (u * (1 + |b|) * n +
        u * (1 + |b| * n + u * (1 + |b|) * n)) * m) ≤
      u * (1 + |b| * n * m + 3 * u * (n + |b| * n) * m) :=
    mul_le_mul_of_nonneg_left (by linarith) hu
  linarith

/-- Rounding to a whole number hides a small error of one. -/
theorem eq_of_near {x : ℚ} {i k : ℤ} (hi : |x - i| ≤ 1 / 2) (hk : |x - k| < 1 / 2) : i = k := by
  have hi' := abs_le.mp hi
  have hk' := abs_lt.mp hk
  have hlow : (i : ℚ) < k + 1 := by linarith
  have hhigh : (k : ℚ) < i + 1 := by linarith
  have hlow' : i < k + 1 := by exact_mod_cast hlow
  have hhigh' : k < i + 1 := by exact_mod_cast hhigh
  omega

end

end Rounding
