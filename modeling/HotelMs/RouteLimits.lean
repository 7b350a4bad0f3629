import HotelMs.TokenBucket
import Mathlib.Data.List.GetD

/-!
# Declared and enforced request limits

`middleware/token_bucket_middleware.py` in front of the handlers of
`api/v1/public/auth.py` that declare a limit. The decorator that declares it
(`middleware/rate_limit.py`) returns the handler as it is, so what is enforced
is the bucket of the path alone. Redis answers, and drops a key 3600 seconds
after its last call.
-/

namespace HotelMs

open Finset

/-! ### The middleware -/

structure ClientRequest where
  path : String
  now : ℚ

def skippedPaths : List String := ["/metrics", "/health", "/docs", "/redoc", "/openapi.json"]

/-- The hashes under `tb:{ip}:{path}` of one client, by path. -/
abbrev Buckets := String → Option Bucket

def liveBucket (data : Option Bucket) (now : ℚ) : Option Bucket :=
  data.filter fun b => now < b.lastRefill + 3600

def isAllowed (buckets : Buckets) (r : ClientRequest) : Bool × Buckets :=
  let result := luaTokenBucket (getConfig r.path) (liveBucket (buckets r.path) r.now) ⟨r.now, 1⟩
  (result.1, fun path => if path = r.path then some result.2 else buckets path)

def dispatch (buckets : Buckets) (r : ClientRequest) : Bool × Buckets :=
  if r.path ∈ skippedPaths then (true, buckets) else isAllowed buckets r

/-- How many of the requests for the path made between `a` and `b` get through. -/
def letThrough (path : String) (a b : ℚ) : Buckets → List ClientRequest → ℕ
  | _, [] => 0
  | buckets, r :: rs =>
    (if r.path = path ∧ (a ≤ r.now ∧ r.now ≤ b) ∧ (dispatch buckets r).1 = true then 1 else 0) +
      letThrough path a b (dispatch buckets r).2 rs

/-! ### The requests for one path as calls on its key -/

def readings (path : String) (rs : List ClientRequest) : List ℚ :=
  (rs.filter fun r => r.path = path).map ClientRequest.now

/-- The calls, the last one repeated for ever. -/
def callsOf (times : List ℚ) (k : ℕ) : BucketCall := ⟨times.getD k (times.getLastD 0), 1⟩

/-- What is stored before call `k`, expired or not. -/
def storedAt (cfg : BucketConfig) (calls : ℕ → BucketCall) : ℕ → Option Bucket
  | 0 => none
  | k + 1 => some (luaTokenBucket cfg (bucketAt cfg (keyLives calls) calls k) (calls k)).2

theorem liveBucket_storedAt (cfg : BucketConfig) (calls : ℕ → BucketCall) (k : ℕ) :
    liveBucket (storedAt cfg calls k) (calls k).now = bucketAt cfg (keyLives calls) calls k := by
  cases k with
  | zero => rfl
  | succ k =>
    simp only [storedAt, tokens_luaTokenBucket, liveBucket, bucketAt, keyLives, Option.filter]

theorem readings_cons_of_eq {path : String} {r : ClientRequest} (h : r.path = path)
    (rs : List ClientRequest) : readings path (r :: rs) = r.now :: readings path rs := by
  simp only [readings, List.filter_cons, h, decide_true, if_true, List.map_cons]

theorem readings_cons_of_ne {path : String} {r : ClientRequest} (h : ¬r.path = path)
    (rs : List ClientRequest) : readings path (r :: rs) = readings path rs := by
  simp only [readings, List.filter_cons, h, decide_false, Bool.false_eq_true, if_false]

theorem dispatch_of_ne {path : String} {r : ClientRequest} (h : ¬r.path = path)
    (buckets : Buckets) : (dispatch buckets r).2 path = buckets path := by
  unfold dispatch isAllowed
  split
  · rfl
  · exact if_neg (Ne.symm h)

theorem dispatch_of_calls {path : String} (hpath : path ∉ skippedPaths) {r : ClientRequest}
    (h : r.path = path) {calls : ℕ → BucketCall} {k : ℕ} (hcall : calls k = ⟨r.now, 1⟩)
    {buckets : Buckets} (hb : buckets path = storedAt (getConfig path) calls k) :
    (dispatch buckets r).1 = allowed (getConfig path) (keyLives calls) calls k ∧
      (dispatch buckets r).2 path = storedAt (getConfig path) calls (k + 1) := by
  subst h
  have hlive := liveBucket_storedAt (getConfig r.path) calls k
  have hnext : storedAt (getConfig r.path) calls (k + 1) =
      some (luaTokenBucket (getConfig r.path)
        (bucketAt (getConfig r.path) (keyLives calls) calls k) (calls k)).2 := rfl
  rw [hcall] at hlive hnext
  rw [allowed, hcall, hnext, dispatch, if_neg hpath]
  simp only [isAllowed, hb, hlive, if_true, and_self]

/-- The middleware lets through what the bucket of the path allows. -/
theorem letThrough_eq {path : String} (hpath : path ∉ skippedPaths) (a b : ℚ)
    (calls : ℕ → BucketCall) (hcost : ∀ k, (calls k).cost = 1) (rs : List ClientRequest) (k : ℕ)
    (buckets : Buckets) (hb : buckets path = storedAt (getConfig path) calls k)
    (hcalls : readings path rs =
      (List.range' k (readings path rs).length).map fun i => (calls i).now) :
    (letThrough path a b buckets rs : ℤ) =
      ∑ i ∈ Ico k (k + (readings path rs).length) with a ≤ (calls i).now ∧ (calls i).now ≤ b,
        spent (getConfig path) (keyLives calls) calls i := by
  induction rs generalizing k buckets with
  | nil => simp [letThrough, readings]
  | cons r rs ih =>
    by_cases hr : r.path = path
    · rw [readings_cons_of_eq hr, List.length_cons, List.range'_succ, List.map_cons] at hcalls
      obtain ⟨hnow, hrest⟩ := List.cons.inj hcalls
      have hcall : calls k = ⟨r.now, 1⟩ := by
        have hone := hcost k
        rw [hnow, ← hone]
      obtain ⟨hallowed, hb'⟩ := dispatch_of_calls hpath hr hcall hb
      have hlt : k < k + (r.now :: readings path rs).length := by
        rw [List.length_cons]
        omega
      have hlen : k + (r.now :: readings path rs).length =
          k + 1 + (readings path rs).length := by
        rw [List.length_cons]
        omega
      rw [letThrough, readings_cons_of_eq hr, sum_filter, sum_eq_sum_Ico_succ_bot hlt, hlen,
        ← sum_filter, ← ih (k + 1) _ hb' hrest, hallowed, ← hnow]
      push_cast
      congr 1
      by_cases hin : a ≤ r.now ∧ r.now ≤ b
      · simp only [hr, hin, spent, hcall, true_and, and_self, if_true]
      · simp only [hin, false_and, and_false, if_false]
    · rw [readings_cons_of_ne hr] at hcalls ⊢
      rw [letThrough, if_neg (fun h => hr h.1), zero_add]
      exact ih k _ ((dispatch_of_ne hr buckets).trans hb) hcalls

theorem readings_callsOf (times : List ℚ) :
    times = (List.range' 0 times.length).map fun i => (callsOf times i).now := by
  refine List.ext_getElem (by simp) fun i hi _ => ?_
  simp [callsOf, hi]

theorem callsOf_mono {times : List ℚ} (h : times.Pairwise (· ≤ ·)) (k : ℕ) :
    (callsOf times k).now ≤ (callsOf times (k + 1)).now := by
  rw [List.pairwise_iff_getElem] at h
  by_cases hk : k + 1 < times.length
  · have hk' : k < times.length := by omega
    simpa [callsOf, hk, hk'] using h k (k + 1) hk' hk (by omega)
  · have hlast : (callsOf times (k + 1)).now = times.getLastD 0 := by
      simp only [callsOf]
      exact List.getD_eq_default _ _ (by omega)
    rw [hlast]
    by_cases hk' : k < times.length
    · have hne : times ≠ [] := List.ne_nil_of_length_pos (by omega)
      have hidx : k = times.length - 1 := by omega
      rw [List.getLastD_eq_getLast?, List.getLast?_eq_some_getLast hne, Option.getD_some,
        List.getLast_eq_getElem]
      simp only [callsOf, List.getD_eq_getElem _ _ hk']
      exact le_of_eq (getElem_congr_idx hidx)
    · simp only [callsOf]
      exact le_of_eq (List.getD_eq_default _ _ (by omega))

theorem letThrough_le {path : String} (hpath : path ∉ skippedPaths) {rs : List ClientRequest}
    (hmono : rs.Pairwise fun r r' => r.now ≤ r'.now) {a b : ℚ} (hab : a ≤ b) :
    (letThrough path a b (fun _ => none) rs : ℚ) ≤
      (getConfig path).capacity + (getConfig path).refillRate * (b - a) := by
  have htimes : (readings path rs).Pairwise (· ≤ ·) := by
    rw [readings, List.pairwise_map]
    exact hmono.filter _
  obtain ⟨hcapacity, hrate, hfill⟩ := getConfig_fill path
  have hlaw := (token_bucket_law (getConfig path) hrate hfill (callsOf (readings path rs))
    (callsOf_mono htimes) (keyLives _) (onlyIdleExpires_keyLives _)).2.1
      (readings path rs).length a b hab (Or.inl hcapacity)
  have hcount := letThrough_eq hpath a b (callsOf (readings path rs)) (fun _ => rfl) rs 0
    (fun _ => none) rfl (readings_callsOf _)
  rw [zero_add, ← range_eq_Ico] at hcount
  have hcast : (letThrough path a b (fun _ => none) rs : ℚ) =
      ((letThrough path a b (fun _ => none) rs : ℤ) : ℚ) := (Int.cast_natCast _).symm
  rw [hcast, hcount]
  exact hlaw

/-! ### The declared limits -/

/-- The handlers under `@limiter.limit`. -/
inductive LimitedHandler
  | socialLogin
  | googleLogin
  | registerEndpoint
  | loginEndpoint
  | resendVerification
  | forgotPassword
  deriving DecidableEq

def LimitedHandler.path : LimitedHandler → String
  | .socialLogin => "/api/v1/public/auth/social"
  | .googleLogin => "/api/v1/public/auth/google"
  | .registerEndpoint => "/api/v1/public/auth/register"
  | .loginEndpoint => "/api/v1/public/auth/login"
  | .resendVerification => "/api/v1/public/auth/resend-verification"
  | .forgotPassword => "/api/v1/public/auth/forgot-password"

/-- The requests a minute. -/
def LimitedHandler.limit : LimitedHandler → ℕ
  | .socialLogin => 20
  | .googleLogin => 20
  | .registerEndpoint => 10
  | .loginEndpoint => 20
  | .resendVerification => 3
  | .forgotPassword => 5

/-- No window sees more requests than the declared limit gives it. -/
def LimitedHandler.Holds (h : LimitedHandler) : Prop :=
  ∀ (rs : List ClientRequest) (a b : ℚ), (rs.Pairwise fun r r' => r.now ≤ r'.now) → a ≤ b →
    (letThrough h.path a b (fun _ => none) rs : ℚ) ≤ h.limit + h.limit * (b - a) / 60

def LimitedHandler.burst (h : LimitedHandler) (n : ℕ) : List ClientRequest :=
  List.replicate n ⟨h.path, 0⟩

theorem LimitedHandler.not_holds_of_burst {h : LimitedHandler} {n : ℕ} (hn : h.limit < n)
    (hburst : letThrough h.path 0 0 (fun _ => none) (h.burst n) = n) : ¬h.Holds := by
  intro hholds
  have hpairwise : (h.burst n).Pairwise fun r r' => r.now ≤ r'.now := by
    rw [burst, List.pairwise_replicate]
    exact Or.inr le_rfl
  have hle := hholds (h.burst n) 0 0 hpairwise le_rfl
  have hlt : (h.limit : ℚ) < n := Nat.cast_lt.mpr hn
  rw [hburst] at hle
  linarith

theorem LimitedHandler.holds_of_config {h : LimitedHandler} (hpath : h.path ∉ skippedPaths)
    (hcapacity : (getConfig h.path).capacity = h.limit)
    (hrate : (getConfig h.path).refillRate = h.limit / 60) : h.Holds := by
  intro rs a b hmono hab
  have hle := letThrough_le hpath hmono hab
  rw [hcapacity, hrate, Int.cast_natCast] at hle
  have hsame : (h.limit : ℚ) / 60 * (b - a) = h.limit * (b - a) / 60 := by ring
  rwa [hsame] at hle

/-- A declared limit holds exactly for the paths that `ROUTE_CONFIGS` names. -/
theorem declared_limit_holds_iff (h : LimitedHandler) :
    h.Holds ↔ ∃ e ∈ routeConfigs, e.1 ≠ "default" ∧ e.1.isPrefixOf h.path = true := by
  cases h with
  | socialLogin =>
    have hburst : letThrough LimitedHandler.socialLogin.path 0 0 (fun _ => none)
        (LimitedHandler.socialLogin.burst 21) = 21 := by decide +kernel
    exact iff_of_false (LimitedHandler.not_holds_of_burst (by decide) hburst) (by decide +kernel)
  | googleLogin =>
    have hburst : letThrough LimitedHandler.googleLogin.path 0 0 (fun _ => none)
        (LimitedHandler.googleLogin.burst 21) = 21 := by decide +kernel
    exact iff_of_false (LimitedHandler.not_holds_of_burst (by decide) hburst) (by decide +kernel)
  | registerEndpoint =>
    exact iff_of_true (LimitedHandler.holds_of_config (by decide +kernel) (by decide +kernel)
      (by decide +kernel)) (by decide +kernel)
  | loginEndpoint =>
    exact iff_of_true (LimitedHandler.holds_of_config (by decide +kernel) (by decide +kernel)
      (by decide +kernel)) (by decide +kernel)
  | resendVerification =>
    have hburst : letThrough LimitedHandler.resendVerification.path 0 0 (fun _ => none)
        (LimitedHandler.resendVerification.burst 4) = 4 := by decide +kernel
    exact iff_of_false (LimitedHandler.not_holds_of_burst (by decide) hburst) (by decide +kernel)
  | forgotPassword =>
    have hburst : letThrough LimitedHandler.forgotPassword.path 0 0 (fun _ => none)
        (LimitedHandler.forgotPassword.burst 6) = 6 := by decide +kernel
    exact iff_of_false (LimitedHandler.not_holds_of_burst (by decide) hburst) (by decide +kernel)

theorem forgotPassword_unlimited :
    letThrough LimitedHandler.forgotPassword.path 0 0 (fun _ => none)
      (LimitedHandler.forgotPassword.burst 200) = 200 ∧ ¬LimitedHandler.forgotPassword.Holds := by
  have hall : letThrough LimitedHandler.forgotPassword.path 0 0 (fun _ => none)
      (LimitedHandler.forgotPassword.burst 200) = 200 := by decide +kernel
  exact ⟨hall, LimitedHandler.not_holds_of_burst (by decide) hall⟩

end HotelMs
