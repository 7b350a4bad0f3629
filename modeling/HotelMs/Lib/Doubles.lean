import HotelMs.Lib.HalfEven
import Mathlib.Data.Int.Log
import Mathlib.Tactic.Ring
import Mathlib.Tactic.FieldSimp
import Mathlib.Tactic.Positivity

/-!
# Rounding to 53 bits
-/

namespace Doubles

open HalfEven

/-- The step of the doubles around `x`, of the subnormal ones too. -/
def ulp (x : ℚ) : ℚ := 2 ^ max (Int.log 2 |x| - 52) (-1074)

def nearest (x : ℚ) : ℚ := halfEven (x / ulp x) * ulp x

/-- The double of a number. An overflow stands at `2 ^ 1024`. -/
def double (x : ℚ) : ℚ := max (-2 ^ 1024) (min (2 ^ 1024) (nearest x))

variable {x y : ℚ}

theorem two_zpow_pos (e : ℤ) : (0 : ℚ) < 2 ^ e := zpow_pos two_pos e

theorem two_zpow_le {d e : ℤ} (h : d ≤ e) : (2 : ℚ) ^ d ≤ 2 ^ e :=
  zpow_le_zpow_right₀ one_le_two h

theorem two_zpow_add (d e : ℤ) : (2 : ℚ) ^ (d + e) = 2 ^ d * 2 ^ e :=
  zpow_add₀ two_ne_zero d e

/-- A power of 2 counts a lower one. -/
theorem exists_mul_two_zpow {d e : ℤ} (h : d ≤ e) : ∃ k : ℤ, (2 : ℚ) ^ e = k * 2 ^ d := by
  refine ⟨2 ^ (e - d).toNat, ?_⟩
  have hsplit : e = ((e - d).toNat : ℤ) + d := by omega
  nth_rewrite 1 [hsplit]
  rw [two_zpow_add, zpow_natCast]
  push_cast
  rfl

theorem ulp_pos (x : ℚ) : 0 < ulp x := two_zpow_pos _

theorem log_le_of_lt {e : ℤ} (hx : x ≠ 0) (h : |x| < 2 ^ (e + 1)) : Int.log 2 |x| ≤ e := by
  have hlog := (Int.lt_zpow_iff_log_lt one_lt_two (abs_pos.mpr hx) (x := e + 1)).mp
    (by exact_mod_cast h)
  omega

theorem le_log_of_le {e : ℤ} (h : 2 ^ e ≤ |x|) : e ≤ Int.log 2 |x| :=
  (Int.zpow_le_iff_le_log one_lt_two ((two_zpow_pos e).trans_le h)).mp (by exact_mod_cast h)

theorem two_zpow_log_le (hx : x ≠ 0) : 2 ^ Int.log 2 |x| ≤ |x| := by
  have h := Int.zpow_log_le_self (R := ℚ) one_lt_two (abs_pos.mpr hx)
  exact_mod_cast h

theorem lt_two_zpow_log (x : ℚ) : |x| < 2 ^ (Int.log 2 |x| + 1) := by
  have h := Int.lt_zpow_succ_log_self one_lt_two |x|
  exact_mod_cast h

/-! ### The grid around a number -/

theorem nearest_le {k : ℤ} (h : x ≤ k * ulp x) : nearest x ≤ k * ulp x := by
  have hscaled : x / ulp x ≤ k := (div_le_iff₀ (ulp_pos x)).mpr h
  have hround : (halfEven (x / ulp x) : ℚ) ≤ k := by exact_mod_cast halfEven_le hscaled
  exact mul_le_mul_of_nonneg_right hround (ulp_pos x).le

theorem le_nearest {k : ℤ} (h : k * ulp x ≤ x) : k * ulp x ≤ nearest x := by
  have hscaled : (k : ℚ) ≤ x / ulp x := (le_div_iff₀ (ulp_pos x)).mpr h
  have hround : (k : ℚ) ≤ halfEven (x / ulp x) := by exact_mod_cast le_halfEven hscaled
  exact mul_le_mul_of_nonneg_right hround (ulp_pos x).le

theorem nearest_eq {k : ℤ} (h : x = k * ulp x) : nearest x = x := by
  have hlow := le_nearest h.ge
  have hhigh := nearest_le h.le
  rw [← h] at hlow hhigh
  exact le_antisymm hhigh hlow

theorem nearest_near (x : ℚ) : |nearest x - x| ≤ ulp x / 2 := by
  have hround := abs_sub_halfEven_le (x / ulp x)
  have hsplit : nearest x - x = -(x / ulp x - halfEven (x / ulp x)) * ulp x := by
    unfold nearest
    have hx : x / ulp x * ulp x = x := div_mul_cancel₀ x (ulp_pos x).ne'
    rw [neg_mul, sub_mul, hx]
    ring
  rw [hsplit, abs_mul, abs_neg, abs_of_pos (ulp_pos x)]
  have hscaled := mul_le_mul_of_nonneg_right hround (ulp_pos x).le
  linarith

theorem ulp_neg (x : ℚ) : ulp (-x) = ulp x := by
  unfold ulp
  rw [abs_neg]

theorem nearest_neg (x : ℚ) : nearest (-x) = -nearest x := by
  unfold nearest
  rw [ulp_neg, neg_div, halfEven_neg]
  push_cast
  ring

theorem nearest_nonneg (h : 0 ≤ x) : 0 ≤ nearest x := by
  have hzero := le_nearest (x := x) (k := 0) (by push_cast; linarith)
  push_cast at hzero
  linarith

/-! ### Order -/

/-- The step of `x` is the one of `y`, or `y` is beyond the next power of 2. -/
theorem ulp_cases (hx : 0 < x) (h : x ≤ y) :
    ulp x = ulp y ∨ ∃ a : ℚ, x ≤ a ∧ a ≤ y ∧ (∃ k : ℤ, a = k * ulp x) ∧ ∃ k : ℤ, a = k * ulp y := by
  have hy := hx.trans_le h
  have hlog : Int.log 2 |x| ≤ Int.log 2 |y| := by
    refine Int.log_mono_right (abs_pos.mpr hx.ne') ?_
    rwa [abs_of_pos hx, abs_of_pos hy]
  rcases eq_or_ne (max (Int.log 2 |x| - 52) (-1074)) (max (Int.log 2 |y| - 52) (-1074))
    with hsame | hdiff
  · left
    unfold ulp
    rw [hsame]
  · right
    have hless : Int.log 2 |x| < Int.log 2 |y| := by omega
    refine ⟨2 ^ Int.log 2 |y|, ?_, ?_, exists_mul_two_zpow (by omega),
      exists_mul_two_zpow (by omega)⟩
    · have hbelow := (le_abs_self x).trans (lt_two_zpow_log x).le
      exact hbelow.trans (two_zpow_le (by omega))
    · exact (two_zpow_log_le hy.ne').trans_eq (abs_of_pos hy)

theorem nearest_mono_of_pos (hx : 0 < x) (h : x ≤ y) : nearest x ≤ nearest y := by
  rcases ulp_cases hx h with hsame | ⟨a, hxa, hay, ⟨k, hk⟩, k', hk'⟩
  · have hround : (halfEven (x / ulp y) : ℚ) ≤ halfEven (y / ulp y) := by
      exact_mod_cast halfEven_mono (div_le_div_of_nonneg_right h (ulp_pos y).le)
    unfold nearest
    rw [hsame]
    exact mul_le_mul_of_nonneg_right hround (ulp_pos y).le
  · calc nearest x ≤ a := by
          rw [hk] at hxa ⊢
          exact nearest_le hxa
      _ ≤ nearest y := by
          rw [hk'] at hay ⊢
          exact le_nearest hay

theorem nearest_mono (h : x ≤ y) : nearest x ≤ nearest y := by
  rcases lt_trichotomy x 0 with hx | hx | hx
  · rcases lt_or_ge y 0 with hy | hy
    · have hflip := nearest_mono_of_pos (neg_pos.mpr hy) (neg_le_neg h)
      rw [nearest_neg, nearest_neg] at hflip
      exact neg_le_neg_iff.mp hflip
    · have hneg := nearest_nonneg (neg_nonneg.mpr hx.le)
      rw [nearest_neg] at hneg
      linarith [nearest_nonneg hy]
  · have hzero : nearest x = 0 := by
      rw [nearest_eq (k := 0) (by rw [hx]; push_cast; ring), hx]
    rw [hzero]
    exact nearest_nonneg (hx.ge.trans h)
  · exact nearest_mono_of_pos hx h

theorem double_mono (h : x ≤ y) : double x ≤ double y :=
  max_le_max le_rfl (min_le_min le_rfl (nearest_mono h))

theorem double_neg (x : ℚ) : double (-x) = -double x := by
  have hpow : (0 : ℚ) < 2 ^ 1024 := by positivity
  unfold double
  rw [nearest_neg]
  generalize (2 : ℚ) ^ 1024 = top at hpow
  grind

theorem double_eq (h : |nearest x| ≤ 2 ^ 1024) : double x = nearest x := by
  obtain ⟨hlow, hhigh⟩ := abs_le.mp h
  unfold double
  rw [min_eq_right hhigh, max_eq_right hlow]

/-! ### Numbers of 53 bits -/

theorem nearest_of_bits {m e : ℤ} (hm : |m| < 2 ^ 53) (he : -1074 ≤ e) :
    nearest (m * 2 ^ e) = m * 2 ^ e := by
  rcases eq_or_ne m 0 with rfl | hne
  · exact nearest_eq (k := 0) (by push_cast; ring)
  · have hne' : (m : ℚ) * 2 ^ e ≠ 0 :=
      mul_ne_zero (Int.cast_ne_zero.mpr hne) (two_zpow_pos e).ne'
    have hbits : |(m : ℚ) * 2 ^ e| < 2 ^ (52 + e + 1) := by
      have hcast : |(m : ℚ)| < 2 ^ (53 : ℤ) := by exact_mod_cast hm
      have hsum : 52 + e + 1 = 53 + e := by ring
      rw [hsum, two_zpow_add, abs_mul, abs_of_pos (two_zpow_pos e)]
      exact mul_lt_mul_of_pos_right hcast (two_zpow_pos e)
    have hlog := log_le_of_lt hne' hbits
    obtain ⟨k, hk⟩ := exists_mul_two_zpow
      (d := max (Int.log 2 |(m : ℚ) * 2 ^ e| - 52) (-1074)) (e := e) (by omega)
    refine nearest_eq (k := m * k) ?_
    rw [Int.cast_mul, mul_assoc]
    exact congrArg (fun a => (m : ℚ) * a) hk

theorem double_of_bits {m e : ℤ} (hm : |m| < 2 ^ 53) (he : -1074 ≤ e) (he' : e ≤ 971) :
    double (m * 2 ^ e) = m * 2 ^ e := by
  have hexact := nearest_of_bits hm he
  rw [double_eq, hexact]
  have hcast : |(m : ℚ)| ≤ 2 ^ (53 : ℤ) := by exact_mod_cast hm.le
  have hpow : (2 : ℚ) ^ (53 + e) ≤ 2 ^ (1024 : ℤ) := two_zpow_le (by omega)
  rw [hexact, abs_mul, abs_of_pos (two_zpow_pos e)]
  rw [two_zpow_add] at hpow
  exact (mul_le_mul_of_nonneg_right hcast (two_zpow_pos e).le).trans (by exact_mod_cast hpow)

theorem double_intCast {m : ℤ} (hm : |m| < 2 ^ 53) : double m = m := by
  have h := double_of_bits (e := 0) hm (by norm_num) (by norm_num)
  rwa [zpow_zero, mul_one] at h

/-! ### One power of 2 -/

section

variable {e : ℤ}

theorem ulp_eq (he : -1022 ≤ e) (hlow : 2 ^ e ≤ |x|) (hhigh : |x| < 2 ^ (e + 1)) :
    ulp x = 2 ^ (e - 52) := by
  have hx : x ≠ 0 := abs_pos.mp ((two_zpow_pos e).trans_le hlow)
  have hlog : Int.log 2 |x| = e := le_antisymm (log_le_of_lt hx hhigh) (le_log_of_le hlow)
  unfold ulp
  rw [hlog, max_eq_left (by omega)]

theorem double_two_zpow (he : -1022 ≤ e) (he' : e ≤ 971) : double (2 ^ e) = 2 ^ e := by
  have h := double_of_bits (m := 1) (e := e) (by norm_num) (by omega) he'
  rwa [Int.cast_one, one_mul] at h

theorem half_step (e : ℤ) : (2 : ℚ) ^ (e - 52) / 2 = 2 ^ (e - 53) := by
  have hsplit : e - 52 = e - 53 + 1 := by ring
  rw [hsplit, two_zpow_add, zpow_one, mul_div_cancel_right₀ _ two_ne_zero]

theorem nearest_near_of_lt (he : -1022 ≤ e) (h : |x| < 2 ^ (e + 1)) :
    |nearest x - x| ≤ 2 ^ (e - 53) := by
  rcases eq_or_ne x 0 with rfl | hx
  · rw [nearest_eq (k := 0) (by push_cast; ring), sub_self, abs_zero]
    exact (two_zpow_pos _).le
  · have hlog := log_le_of_lt hx h
    have hulp : ulp x ≤ 2 ^ (e - 52) := two_zpow_le (by omega)
    have hnear := nearest_near x
    rw [← half_step]
    linarith

theorem double_eq_nearest (he : -1022 ≤ e) (he' : e ≤ 970) (h : |x| < 2 ^ (e + 1)) :
    double x = nearest x := by
  have hnear := nearest_near_of_lt he h
  have htri := abs_sub_abs_le_abs_sub (nearest x) x
  have hstep : (2 : ℚ) ^ (e - 53) ≤ 2 ^ (e + 1) := two_zpow_le (by omega)
  have htop : (2 : ℚ) ^ (e + 1 + 1) ≤ 2 ^ (1024 : ℤ) := two_zpow_le (by omega)
  rw [two_zpow_add _ 1, zpow_one] at htop
  refine double_eq ?_
  have hbound : |nearest x| ≤ 2 ^ (1024 : ℤ) := by linarith
  exact_mod_cast hbound

/-- Below a power of 2 a double is off by at most half of the step there. -/
theorem double_near (he : -1022 ≤ e) (he' : e ≤ 970) (h : |x| < 2 ^ (e + 1)) :
    |double x - x| ≤ 2 ^ (e - 53) := by
  rw [double_eq_nearest he he' h]
  exact nearest_near_of_lt he h

/-- The numbers whose double is at most `c`, which lies between `k` and `k + 1` steps. -/
theorem double_le_iff {k : ℤ} {c : ℚ} (he : -1022 ≤ e) (he' : e ≤ 970) (heven : Even k)
    (hk : 2 ^ 52 ≤ k) (hk' : k < 2 ^ 53) (hc : k * 2 ^ (e - 52) ≤ c)
    (hc' : c < (k + 1) * 2 ^ (e - 52)) : double x ≤ c ↔ x ≤ (2 * k + 1) * 2 ^ (e - 53) := by
  have hstep : (0 : ℚ) < 2 ^ (e - 52) := two_zpow_pos _
  have hlower : (2 : ℚ) ^ e ≤ k * 2 ^ (e - 52) := by
    have hsplit : (2 : ℚ) ^ e = 2 ^ (52 : ℤ) * 2 ^ (e - 52) := by
      rw [← two_zpow_add]
      ring_nf
    have hcast : (2 : ℚ) ^ (52 : ℤ) ≤ k := by exact_mod_cast hk
    rw [hsplit]
    exact mul_le_mul_of_nonneg_right hcast hstep.le
  have hupper : (k + 1) * 2 ^ (e - 52) ≤ (2 : ℚ) ^ (e + 1) := by
    have hsplit : (2 : ℚ) ^ (e + 1) = 2 ^ (53 : ℤ) * 2 ^ (e - 52) := by
      rw [← two_zpow_add]
      ring_nf
    have hnext : k + 1 ≤ 2 ^ 53 := by omega
    have hcast : (k : ℚ) + 1 ≤ 2 ^ (53 : ℤ) := by exact_mod_cast hnext
    rw [hsplit]
    exact mul_le_mul_of_nonneg_right hcast hstep.le
  rcases lt_or_ge x (2 ^ e) with hbelow | habove
  · have hround := double_mono hbelow.le
    rw [double_two_zpow he (by omega)] at hround
    refine iff_of_true (hround.trans (hlower.trans hc)) ?_
    rw [← half_step]
    linarith
  rcases lt_or_ge x (2 ^ (e + 1)) with hbelow | habove'
  · have hx : |x| = x := abs_of_pos ((two_zpow_pos e).trans_le habove)
    have hbelow' : |x| < 2 ^ (e + 1) := hx.trans_lt hbelow
    have hulp := ulp_eq he (habove.trans hx.ge) hbelow'
    have hgrid : double x ≤ c ↔ halfEven (x / 2 ^ (e - 52)) ≤ k := by
      rw [double_eq_nearest he he' hbelow']
      unfold nearest
      rw [hulp]
      constructor
      · intro h
        have hless : (halfEven (x / 2 ^ (e - 52)) : ℚ) < k + 1 :=
          lt_of_mul_lt_mul_right (h.trans_lt hc') hstep.le
        exact Int.lt_add_one_iff.mp (by exact_mod_cast hless)
      · intro h
        have hcast : (halfEven (x / 2 ^ (e - 52)) : ℚ) ≤ k := Int.cast_le.mpr h
        exact (mul_le_mul_of_nonneg_right hcast hstep.le).trans hc
    rw [hgrid, halfEven_le_even heven, div_le_iff₀ hstep, ← half_step]
    constructor
    · intro h
      linarith
    · intro h
      linarith
  · have hround := double_mono habove'
    rw [double_two_zpow (by omega) (by omega)] at hround
    refine iff_of_false (not_le.mpr (by linarith)) (not_le.mpr ?_)
    rw [← half_step]
    linarith

end

end Doubles
