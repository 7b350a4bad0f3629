import HotelMs.Lib.Clipped
import Mathlib.Algebra.BigOperators.Intervals
import Mathlib.Algebra.BigOperators.Ring.Finset
import Mathlib.Algebra.Order.BigOperators.Ring.Finset
import Mathlib.Algebra.Order.Ring.Rat
import Mathlib.Data.Finset.Max
import Mathlib.Data.Rat.Floor
import Mathlib.Tactic.Linarith
import Mathlib.Tactic.Ring

/-!
# The token bucket (`components/token_bucket.py`)

The Lua script on one key, in exact arithmetic. The key is gone when a call
finds it expired, and then the script starts from a full bucket.
-/

namespace HotelMs

open Finset

structure BucketConfig where
  capacity : ℤ
  refillRate : ℚ

def defaultConfig : BucketConfig := ⟨200, 200 / 60⟩

def routeConfigs : List (String × BucketConfig) :=
  [("/api/v1/public/auth/register", ⟨10, 10 / 60⟩), ("/api/v1/public/auth/login", ⟨20, 20 / 60⟩),
    ("default", defaultConfig)]

def getConfig (path : String) : BucketConfig :=
  ((routeConfigs.find? fun e => e.1 != "default" && e.1.isPrefixOf path).map Prod.snd).getD
    defaultConfig

/-- The hash stored under the key. -/
structure Bucket where
  tokens : ℚ
  lastRefill : ℚ

structure BucketCall where
  now : ℚ
  cost : ℤ

def refilled (cfg : BucketConfig) (data : Option Bucket) (now : ℚ) : ℚ :=
  let tokens := (data.map Bucket.tokens).getD cfg.capacity
  let lastRefill := (data.map Bucket.lastRefill).getD now
  let elapsed := max 0 (now - lastRefill)
  min cfg.capacity (tokens + elapsed * cfg.refillRate)

def luaTokenBucket (cfg : BucketConfig) (data : Option Bucket) (call : BucketCall) :
    Bool × Bucket :=
  let level := refilled cfg data call.now
  if level < call.cost then (false, ⟨level, call.now⟩)
  else (true, ⟨level - call.cost, call.now⟩)

/-! ### A sequence of calls on one key -/

section

variable (cfg : BucketConfig) (kept : ℕ → Bool) (calls : ℕ → BucketCall)

/-- What call `k` finds under the key: `kept k` says that it has not expired. -/
def bucketAt : ℕ → Option Bucket
  | 0 => none
  | k + 1 => if kept (k + 1) then some (luaTokenBucket cfg (bucketAt k) (calls k)).2 else none

def allowed (k : ℕ) : Bool := (luaTokenBucket cfg (bucketAt cfg kept calls k) (calls k)).1

def spent (k : ℕ) : ℤ := if allowed cfg kept calls k then (calls k).cost else 0

/-- The total cost allowed among the calls `j, ..., k - 1`. -/
def admitted (j k : ℕ) : ℤ := ∑ i ∈ Ico j k, spent cfg kept calls i

/-- The time the clock readings climb between calls `j` and `k`. -/
def ascent (now : ℕ → ℚ) (j k : ℕ) : ℚ := ∑ i ∈ Ico j k, max 0 (now (i + 1) - now i)

/-- `EXPIRE key 3600`: the key is dropped only after 3600 seconds without a call. -/
def OnlyIdleExpires : Prop :=
  ∀ k, kept (k + 1) = false → 3600 ≤ (calls (k + 1)).now - (calls k).now

/-- By the time the key can be dropped the bucket has filled up again. -/
def FillsBeforeExpiry : Prop :=
  ∀ k, kept (k + 1) = false → 3600 ≤ (calls (k + 1)).now - (calls k).now ∧
    (cfg.capacity : ℚ) ≤ 3600 * cfg.refillRate

end

variable {cfg : BucketConfig} {kept : ℕ → Bool} {calls : ℕ → BucketCall}

theorem allowed_iff (k : ℕ) : allowed cfg kept calls k = true ↔
    ((calls k).cost : ℚ) ≤ refilled cfg (bucketAt cfg kept calls k) (calls k).now := by
  unfold allowed luaTokenBucket
  simp only
  split <;> simp_all

theorem tokens_luaTokenBucket (k : ℕ) :
    (luaTokenBucket cfg (bucketAt cfg kept calls k) (calls k)).2 =
      ⟨refilled cfg (bucketAt cfg kept calls k) (calls k).now - spent cfg kept calls k,
        (calls k).now⟩ := by
  unfold spent allowed luaTokenBucket
  simp only
  split <;> simp

theorem refilled_none (cfg : BucketConfig) (now : ℚ) : refilled cfg none now = cfg.capacity := by
  simp [refilled]

theorem refilled_of_expired {k : ℕ} (hk : kept (k + 1) = false) (now : ℚ) :
    refilled cfg (bucketAt cfg kept calls (k + 1)) now = cfg.capacity := by
  rw [bucketAt, hk]
  exact refilled_none cfg now

theorem refilled_bucketAt_succ {k : ℕ} (hk : kept (k + 1) = true) :
    refilled cfg (bucketAt cfg kept calls (k + 1)) (calls (k + 1)).now =
      min (cfg.capacity : ℚ) (refilled cfg (bucketAt cfg kept calls k) (calls k).now -
        spent cfg kept calls k + max 0 ((calls (k + 1)).now - (calls k).now) * cfg.refillRate) := by
  conv_lhs => unfold refilled bucketAt
  rw [if_pos hk, tokens_luaTokenBucket]
  rfl

variable (cfg kept calls) in
theorem nonneg_or_spent_zero (k : ℕ) :
    (spent cfg kept calls k : ℚ) ≤ refilled cfg (bucketAt cfg kept calls k) (calls k).now ∨
      spent cfg kept calls k = 0 := by
  unfold spent
  split
  next h => exact Or.inl ((allowed_iff k).mp h)
  next => exact Or.inr rfl

variable (kept calls) in
theorem floor_le_rest (hrate : 0 ≤ cfg.refillRate) (k : ℕ) : min (cfg.capacity : ℚ) 0 ≤
    refilled cfg (bucketAt cfg kept calls k) (calls k).now - spent cfg kept calls k := by
  have hrest : ∀ k, min (cfg.capacity : ℚ) 0 ≤
      refilled cfg (bucketAt cfg kept calls k) (calls k).now →
      min (cfg.capacity : ℚ) 0 ≤
        refilled cfg (bucketAt cfg kept calls k) (calls k).now - spent cfg kept calls k := by
    intro k hk
    rcases nonneg_or_spent_zero cfg kept calls k with h | h
    · exact (min_le_right _ _).trans (sub_nonneg.mpr h)
    · rwa [h, Int.cast_zero, sub_zero]
  refine hrest k ?_
  induction k with
  | zero =>
    show _ ≤ refilled cfg none _
    rw [refilled_none]
    exact min_le_left _ _
  | succ k ih =>
    cases hk : kept (k + 1) with
    | false =>
      rw [refilled_of_expired hk]
      exact min_le_left _ _
    | true =>
      rw [refilled_bucketAt_succ hk]
      refine le_min (min_le_left _ _) ((hrest k ih).trans ?_)
      have hgain := mul_nonneg (le_max_left 0 ((calls (k + 1)).now - (calls k).now)) hrate
      exact le_add_of_nonneg_right hgain

/-- The refilled amount of each call is the clipped counter: what expires would
have been full. -/
theorem refilled_eq_level (hrate : 0 ≤ cfg.refillRate) (hfill : FillsBeforeExpiry cfg kept calls)
    (k : ℕ) : refilled cfg (bucketAt cfg kept calls k) (calls k).now =
      Clipped.level (cfg.capacity : ℚ) (fun i =>
        max 0 ((calls (i + 1)).now - (calls i).now) * cfg.refillRate -
          spent cfg kept calls i) k := by
  induction k with
  | zero => exact refilled_none cfg _
  | succ k ih =>
    rw [Clipped.level, ← ih]
    cases hk : kept (k + 1) with
    | true =>
      rw [refilled_bucketAt_succ hk]
      congr 1
      ring
    | false =>
      obtain ⟨hidle, hcap⟩ := hfill k hk
      have hrest := floor_le_rest kept calls hrate k
      have hgain : 3600 * cfg.refillRate ≤
          max 0 ((calls (k + 1)).now - (calls k).now) * cfg.refillRate :=
        mul_le_mul_of_nonneg_right (hidle.trans (le_max_right _ _)) hrate
      rw [refilled_of_expired hk, eq_comm, min_eq_left]
      rcases min_le_iff.mp hrest with h | h
      · linarith
      · linarith

theorem le_refilled_iff (hrate : 0 ≤ cfg.refillRate) (hfill : FillsBeforeExpiry cfg kept calls)
    {k : ℕ} {x : ℚ} : x ≤ refilled cfg (bucketAt cfg kept calls k) (calls k).now ↔ ∀ j ≤ k,
      x ≤ cfg.capacity + (cfg.refillRate * ascent (fun i => (calls i).now) j k -
        admitted cfg kept calls j k) := by
  rw [refilled_eq_level hrate hfill, Clipped.le_level_iff]
  refine forall₂_congr fun j _ => ?_
  have hsum : ∑ i ∈ Ico j k, (max 0 ((calls (i + 1)).now - (calls i).now) * cfg.refillRate -
      spent cfg kept calls i) =
        cfg.refillRate * ascent (fun i => (calls i).now) j k - admitted cfg kept calls j k := by
    rw [sum_sub_distrib, ← sum_mul, mul_comm]
    simp [ascent, admitted]
  rw [hsum]

/-- The law for clocks of any kind: a call is allowed exactly when no window
that ends with it exceeds the capacity and what its clock readings climbed. -/
theorem allowed_iff_ascent (hrate : 0 ≤ cfg.refillRate) (hfill : FillsBeforeExpiry cfg kept calls)
    (k : ℕ) : allowed cfg kept calls k = true ↔ ∀ j ≤ k,
      (admitted cfg kept calls j k : ℚ) + (calls k).cost ≤
        cfg.capacity + cfg.refillRate * ascent (fun i => (calls i).now) j k := by
  rw [allowed_iff, le_refilled_iff hrate hfill]
  refine forall₂_congr fun j _ => ?_
  constructor
  · intro h
    linarith
  · intro h
    linarith

theorem ascent_of_monotone (hmono : ∀ k, (calls k).now ≤ (calls (k + 1)).now) {j k : ℕ}
    (hjk : j ≤ k) : ascent (fun i => (calls i).now) j k = (calls k).now - (calls j).now := by
  induction k, hjk using Nat.le_induction with
  | base => simp [ascent]
  | succ k hk ih =>
    have hstep := sub_nonneg.mpr (hmono k)
    unfold ascent at ih ⊢
    rw [sum_Ico_succ_top hk, ih, max_eq_right hstep]
    ring

theorem admitted_succ {j k : ℕ} (hjk : j ≤ k) : admitted cfg kept calls j (k + 1) =
    admitted cfg kept calls j k + spent cfg kept calls k := by
  unfold admitted
  rw [sum_Ico_succ_top hjk]

/-! ### Clocks that never go back -/

/-- What is admitted among the first `n` calls at readings between `a` and `b`. -/
def admittedBetween (cfg : BucketConfig) (kept : ℕ → Bool) (calls : ℕ → BucketCall) (n : ℕ)
    (a b : ℚ) : ℤ :=
  ∑ i ∈ range n with a ≤ (calls i).now ∧ (calls i).now ≤ b, spent cfg kept calls i

/-- Some call among the first `n`, at a reading between `a` and `b`, is allowed. -/
def AdmitsBetween (cfg : BucketConfig) (kept : ℕ → Bool) (calls : ℕ → BucketCall) (n : ℕ)
    (a b : ℚ) : Prop :=
  ∃ i < n, a ≤ (calls i).now ∧ (calls i).now ≤ b ∧ allowed cfg kept calls i = true

theorem monotone_now (hmono : ∀ k, (calls k).now ≤ (calls (k + 1)).now) {i j : ℕ} (h : i ≤ j) :
    (calls i).now ≤ (calls j).now :=
  monotone_nat_of_le_succ (f := fun i => (calls i).now) hmono h

/-- Between the first and the last allowed call of a window every allowed call is in it. -/
theorem admittedBetween_eq (hmono : ∀ k, (calls k).now ≤ (calls (k + 1)).now) {n : ℕ} {a b : ℚ}
    (h : AdmitsBetween cfg kept calls n a b) : ∃ j k, j ≤ k ∧ a ≤ (calls j).now ∧
      (calls k).now ≤ b ∧ allowed cfg kept calls k = true ∧
      admittedBetween cfg kept calls n a b = admitted cfg kept calls j (k + 1) := by
  classical
  obtain ⟨i₀, hi₀, ha₀, hb₀, hal₀⟩ := h
  let F := {i ∈ range n | a ≤ (calls i).now ∧ (calls i).now ≤ b ∧ allowed cfg kept calls i = true}
  have hmem : ∀ i, i ∈ F ↔ i < n ∧ a ≤ (calls i).now ∧ (calls i).now ≤ b ∧
      allowed cfg kept calls i = true := by
    intro i
    rw [mem_filter, mem_range]
  have hF : F.Nonempty := ⟨i₀, (hmem i₀).mpr ⟨hi₀, ha₀, hb₀, hal₀⟩⟩
  obtain ⟨_, hja, _, _⟩ := (hmem _).mp (F.min'_mem hF)
  obtain ⟨hkn, _, hkb, hkal⟩ := (hmem _).mp (F.max'_mem hF)
  refine ⟨F.min' hF, F.max' hF, F.min'_le _ (F.max'_mem hF), hja, hkb, hkal, ?_⟩
  have hrefused : ∀ i, ¬allowed cfg kept calls i = true → spent cfg kept calls i = 0 := by
    intro i hi
    rw [spent, if_neg hi]
  have hwindow : ∑ i ∈ F, spent cfg kept calls i = admittedBetween cfg kept calls n a b := by
    refine sum_subset (fun i hi => ?_) fun i hi hno => hrefused i fun hal => hno ?_
    · obtain ⟨hin, hia, hib, _⟩ := (hmem i).mp hi
      exact mem_filter.mpr ⟨mem_range.mpr hin, hia, hib⟩
    · obtain ⟨hin, hia, hib⟩ := mem_filter.mp hi
      exact (hmem i).mpr ⟨mem_range.mp hin, hia, hib, hal⟩
  have hbetween : ∑ i ∈ F, spent cfg kept calls i =
      admitted cfg kept calls (F.min' hF) (F.max' hF + 1) := by
    refine sum_subset (fun i hi => ?_) fun i hi hno => hrefused i fun hal => hno ?_
    · exact mem_Ico.mpr ⟨F.min'_le i hi, Nat.lt_succ_of_le (F.le_max' i hi)⟩
    · obtain ⟨hji, hik⟩ := mem_Ico.mp hi
      have hik := Nat.lt_succ_iff.mp hik
      exact (hmem i).mpr ⟨hik.trans_lt hkn, hja.trans (monotone_now hmono hji),
        (monotone_now hmono hik).trans hkb, hal⟩
  exact hwindow.symm.trans hbetween

theorem fills_of_idle (hcap : (cfg.capacity : ℚ) ≤ 3600 * cfg.refillRate)
    (hkept : OnlyIdleExpires kept calls) : FillsBeforeExpiry cfg kept calls :=
  fun k hk => ⟨hkept k hk, hcap⟩

theorem fills_of_kept : FillsBeforeExpiry cfg (fun _ => true) calls := by
  intro k hk
  cases hk

theorem allowed_iff_windows (hrate : 0 ≤ cfg.refillRate)
    (hfill : FillsBeforeExpiry cfg kept calls)
    (hmono : ∀ k, (calls k).now ≤ (calls (k + 1)).now) (k : ℕ) :
    allowed cfg kept calls k = true ↔ ∀ j ≤ k,
      (admitted cfg kept calls j k : ℚ) + (calls k).cost ≤
        cfg.capacity + cfg.refillRate * ((calls k).now - (calls j).now) := by
  rw [allowed_iff_ascent hrate hfill]
  refine forall₂_congr fun j hj => ?_
  rw [ascent_of_monotone hmono hj]

theorem admittedBetween_le (hrate : 0 ≤ cfg.refillRate)
    (hfill : FillsBeforeExpiry cfg kept calls)
    (hmono : ∀ k, (calls k).now ≤ (calls (k + 1)).now) {n : ℕ} {a b : ℚ}
    (h : AdmitsBetween cfg kept calls n a b) :
    (admittedBetween cfg kept calls n a b : ℚ) ≤ cfg.capacity + cfg.refillRate * (b - a) := by
  obtain ⟨j, k, hjk, hja, hkb, hal, heq⟩ := admittedBetween_eq hmono h
  have hlaw := (allowed_iff_windows hrate hfill hmono k).mp hal j hjk
  have hlast : spent cfg kept calls k = (calls k).cost := by
    rw [spent, if_pos hal]
  have hspan : cfg.refillRate * ((calls k).now - (calls j).now) ≤ cfg.refillRate * (b - a) :=
    mul_le_mul_of_nonneg_left (by linarith) hrate
  rw [heq, admitted_succ hjk, hlast]
  push_cast
  linarith

/-- By induction on the calls: the same decisions so far admit the same totals,
and those decide the next call. -/
theorem allowed_eq_of_fills (hrate : 0 ≤ cfg.refillRate) {kept' : ℕ → Bool}
    (hfill : FillsBeforeExpiry cfg kept calls) (hfill' : FillsBeforeExpiry cfg kept' calls)
    (k : ℕ) : allowed cfg kept calls k = allowed cfg kept' calls k := by
  induction k using Nat.strong_induction_on with
  | _ k ih =>
    have hsame : ∀ j, admitted cfg kept calls j k = admitted cfg kept' calls j k := by
      intro j
      refine sum_congr rfl fun i hi => ?_
      rw [spent, spent, ih i (mem_Ico.mp hi).2]
    rw [Bool.eq_iff_iff, allowed_iff_ascent hrate hfill, allowed_iff_ascent hrate hfill']
    refine forall₂_congr fun j _ => ?_
    rw [hsame j]

/-- The law of the bucket on clocks that never go back: which calls are allowed,
how much any window admits, and that the decisions are those of a key that
never expires. -/
theorem token_bucket_law (cfg : BucketConfig) (hrate : 0 < cfg.refillRate)
    (hcap : (cfg.capacity : ℚ) ≤ 3600 * cfg.refillRate) (calls : ℕ → BucketCall)
    (hmono : ∀ k, (calls k).now ≤ (calls (k + 1)).now) (kept : ℕ → Bool)
    (hkept : OnlyIdleExpires kept calls) :
    (∀ k, allowed cfg kept calls k = true ↔ ∀ j ≤ k,
      (admitted cfg kept calls j k : ℚ) + (calls k).cost ≤
        cfg.capacity + cfg.refillRate * ((calls k).now - (calls j).now)) ∧
    (∀ n a b, a ≤ b → 0 ≤ cfg.capacity ∨ AdmitsBetween cfg kept calls n a b →
      (admittedBetween cfg kept calls n a b : ℚ) ≤ cfg.capacity + cfg.refillRate * (b - a)) ∧
    (∀ k, allowed cfg kept calls k = allowed cfg (fun _ => true) calls k) := by
  have hfill := fills_of_idle hcap hkept
  refine ⟨allowed_iff_windows hrate.le hfill hmono, fun n a b hab h => ?_,
    allowed_eq_of_fills hrate.le hfill fills_of_kept⟩
  by_cases hadmits : AdmitsBetween cfg kept calls n a b
  · exact admittedBetween_le hrate.le hfill hmono hadmits
  · have hzero : admittedBetween cfg kept calls n a b = 0 := by
      refine sum_eq_zero fun i hi => ?_
      obtain ⟨hin, hia, hib⟩ := mem_filter.mp hi
      rw [spent, if_neg fun hal => hadmits ⟨i, mem_range.mp hin, hia, hib, hal⟩]
    have hcapacity : 0 ≤ (cfg.capacity : ℚ) := Int.cast_nonneg (h.resolve_right hadmits)
    have hspan := mul_nonneg hrate.le (sub_nonneg.mpr hab)
    rw [hzero, Int.cast_zero]
    exact add_nonneg hcapacity hspan

/-! ### The configured routes -/

theorem routeConfigs_fill : ∀ e ∈ routeConfigs, 0 ≤ e.2.capacity ∧ 0 < e.2.refillRate ∧
    (e.2.capacity : ℚ) ≤ 3600 * e.2.refillRate := by
  decide +kernel

theorem getConfig_fill (path : String) : 0 ≤ (getConfig path).capacity ∧
    0 < (getConfig path).refillRate ∧
    ((getConfig path).capacity : ℚ) ≤ 3600 * (getConfig path).refillRate := by
  unfold getConfig
  cases hfind : routeConfigs.find? fun e => e.1 != "default" && e.1.isPrefixOf path with
  | none => exact routeConfigs_fill ("default", defaultConfig) (by simp [routeConfigs])
  | some e => exact routeConfigs_fill e (List.mem_of_find?_eq_some hfind)

/-- The key as Redis keeps it: gone 3600 seconds after the last call. -/
def keyLives (calls : ℕ → BucketCall) : ℕ → Bool
  | 0 => true
  | k + 1 => decide ((calls (k + 1)).now < (calls k).now + 3600)

theorem onlyIdleExpires_keyLives (calls : ℕ → BucketCall) :
    OnlyIdleExpires (keyLives calls) calls := by
  intro k hk
  have hgone := of_decide_eq_false hk
  linarith

def everyThreeSeconds (k : ℕ) : BucketCall := ⟨3 * k, 1⟩

def loginConfig : BucketConfig := getConfig "/api/v1/public/auth/login"

theorem token_bucket_law_login :
    (∀ k, allowed loginConfig (keyLives everyThreeSeconds) everyThreeSeconds k = true ↔ ∀ j ≤ k,
      (admitted loginConfig (keyLives everyThreeSeconds) everyThreeSeconds j k : ℚ) + 1 ≤
        20 + 20 / 60 * (3 * (k : ℚ) - 3 * (j : ℚ))) ∧
    (∀ n a b, a ≤ b → (0 : ℤ) ≤ 20 ∨
      AdmitsBetween loginConfig (keyLives everyThreeSeconds) everyThreeSeconds n a b →
      (admittedBetween loginConfig (keyLives everyThreeSeconds) everyThreeSeconds n a b : ℚ) ≤
        20 + 20 / 60 * (b - a)) ∧
    (∀ k, allowed loginConfig (keyLives everyThreeSeconds) everyThreeSeconds k =
      allowed loginConfig (fun _ => true) everyThreeSeconds k) := by
  have hcap : loginConfig.capacity = 20 := by decide +kernel
  have hrate : loginConfig.refillRate = 20 / 60 := by decide +kernel
  have hmono : ∀ k, (everyThreeSeconds k).now ≤ (everyThreeSeconds (k + 1)).now := by
    intro k
    simp [everyThreeSeconds]
  obtain ⟨_, hpos, hfill⟩ := getConfig_fill "/api/v1/public/auth/login"
  have hlaw := token_bucket_law loginConfig hpos hfill everyThreeSeconds hmono
    (keyLives everyThreeSeconds) (onlyIdleExpires_keyLives _)
  rw [hcap, hrate] at hlaw
  simpa [everyThreeSeconds] using hlaw

/-! ### Clocks of several replicas -/

end HotelMs
