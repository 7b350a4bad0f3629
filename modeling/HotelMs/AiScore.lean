import HotelMs.GuestIntelligence
import HotelMs.Lib.Rounding
import Mathlib.Tactic.Linarith
import Mathlib.Tactic.Positivity
import Mathlib.Tactic.GCongr

/-!
# What moves the AI score

The score is a sum of terms, each rounded and capped by itself, clamped to a
percentage.
-/

namespace HotelMs

open Rounding

/-- Exact arithmetic; `int()` truncates. -/
structure ExactGuestFloat extends GuestFloat where
  value : Carrier → ℚ
  value_ofRat : ∀ q, value (ofRat q) = q
  value_mul : ∀ x y, value (mul x y) = value x * value y
  value_div : ∀ x y, value (div x y) = value x / value y
  toInt_value : ∀ x, toInt x = truncate (value x)

/-! ### The terms -/

def pointsBonus (points : ℤ) : ℤ := min 15 (truncate (points / 5000 * 15))

/-- Of completed stays the bonus, of cancelled bookings the penalty. -/
def rateTerm (count total : ℕ) : ℤ := truncate (count / (max total 1 : ℕ) * 20)

def spendBonus (spent : ℚ) : ℤ := min 10 (truncate (spent / 3000 * 10))

/-- Ten points of a VIP, thirty of a banned guest. -/
def statusTerm (amount : ℕ) (status : Bool) : ℤ := if status then amount else 0

def rawScore (user : User) (total completed cancelled : ℕ) (spent : ℚ) : ℤ :=
  50 + pointsBonus user.loyaltyPoints + rateTerm completed total - rateTerm cancelled total +
    spendBonus spent + statusTerm 10 user.vipStatus - statusTerm 30 user.isBanned

theorem computeAiScore_eq (F : ExactGuestFloat) (user : User) (total completed cancelled : ℕ)
    (spent : F.Carrier) :
    computeAiScore F.toGuestFloat user total completed cancelled spent =
      clampScore (rawScore user total completed cancelled (F.value spent)) := by
  unfold computeAiScore rawScore pointsBonus rateTerm spendBonus statusTerm
  simp only [F.toInt_value, F.value_mul, F.value_div, F.value_ofRat, Nat.cast_ofNat]

theorem pointsBonus_mono : Monotone pointsBonus := by
  intro p p' h
  have hcast : (p : ℚ) ≤ p' := Int.cast_le.mpr h
  have hterm : (p : ℚ) / 5000 * 15 ≤ p' / 5000 * 15 := by linarith
  exact min_le_min le_rfl (truncate_mono hterm)

theorem rateTerm_mono {count count' : ℕ} (h : count ≤ count') (total : ℕ) :
    rateTerm count total ≤ rateTerm count' total := by
  have hcast : (count : ℚ) ≤ count' := Nat.cast_le.mpr h
  have hterm : (count : ℚ) / (max total 1 : ℕ) * 20 ≤ count' / (max total 1 : ℕ) * 20 := by
    gcongr
  exact truncate_mono hterm

theorem spendBonus_mono : Monotone spendBonus := by
  intro x y h
  have hterm : x / 3000 * 10 ≤ y / 3000 * 10 := by linarith
  exact min_le_min le_rfl (truncate_mono hterm)

theorem statusTerm_mono (amount : ℕ) {status status' : Bool}
    (h : status = true → status' = true) :
    statusTerm amount status ≤ statusTerm amount status' := by
  unfold statusTerm
  cases status with
  | false =>
    rw [if_neg Bool.false_ne_true]
    split
    · exact Int.natCast_nonneg amount
    · exact le_rfl
  | true => rw [h rfl]

theorem clampScore_mono : Monotone clampScore := fun _ _ h =>
  max_le_max le_rfl (min_le_min le_rfl h)

theorem clampScore_range (score : ℤ) : 0 ≤ clampScore score ∧ clampScore score ≤ 100 :=
  ⟨le_max_left _ _, max_le (by decide) (min_le_left _ _)⟩

/-! ### The breakdown of the docstring -/

theorem pointsBonus_range {points : ℤ} (h : 0 ≤ points) :
    0 ≤ pointsBonus points ∧ pointsBonus points ≤ 15 := by
  have hterm : (0 : ℚ) ≤ points / 5000 * 15 := by positivity
  exact ⟨le_min (by decide) (truncate_nonneg hterm), min_le_left _ _⟩

theorem rateTerm_range {count total : ℕ} (h : count ≤ total) :
    0 ≤ rateTerm count total ∧ rateTerm count total ≤ 20 := by
  have hterm : (0 : ℚ) ≤ count / (max total 1 : ℕ) * 20 := by positivity
  have hpos : (0 : ℚ) < (max total 1 : ℕ) := Nat.cast_pos.mpr (lt_max_of_lt_right Nat.one_pos)
  have hcount : (count : ℚ) ≤ (max total 1 : ℕ) := Nat.cast_le.mpr (h.trans (le_max_left _ _))
  have hrate : (count : ℚ) / (max total 1 : ℕ) ≤ 1 := (div_le_one hpos).mpr hcount
  have hle : (count : ℚ) / (max total 1 : ℕ) * 20 ≤ ((20 : ℤ) : ℚ) := by
    rw [Int.cast_ofNat]
    linarith
  exact ⟨truncate_nonneg hterm, truncate_le hle⟩

theorem spendBonus_range {spent : ℚ} (h : 0 ≤ spent) :
    0 ≤ spendBonus spent ∧ spendBonus spent ≤ 10 := by
  have hterm : 0 ≤ spent / 3000 * 10 := by positivity
  exact ⟨le_min (by decide) (truncate_nonneg hterm), min_le_left _ _⟩

theorem statusTerm_range (amount : ℕ) (status : Bool) :
    0 ≤ statusTerm amount status ∧ statusTerm amount status ≤ amount := by
  unfold statusTerm
  split
  · exact ⟨Int.natCast_nonneg amount, le_rfl⟩
  · exact ⟨le_rfl, Int.natCast_nonneg amount⟩

/-- The clamp never lifts a score; from above it takes at most five points. -/
theorem rawScore_range {user : User} {total completed cancelled : ℕ} {spent : ℚ}
    (hpoints : 0 ≤ user.loyaltyPoints) (hspent : 0 ≤ spent)
    (hcount : completed + cancelled ≤ total) :
    0 ≤ rawScore user total completed cancelled spent ∧
      rawScore user total completed cancelled spent ≤ 105 := by
  have hp := pointsBonus_range hpoints
  have hs := spendBonus_range hspent
  have hdone := rateTerm_range (Nat.le_of_add_right_le hcount)
  have hgone := rateTerm_range (Nat.le_of_add_left_le hcount)
  have hvip := statusTerm_range 10 user.vipStatus
  have hbanned := statusTerm_range 30 user.isBanned
  unfold rawScore
  omega

theorem computeAiScore_eq_min (F : ExactGuestFloat) {user : User} {total completed cancelled : ℕ}
    {spent : F.Carrier} (hpoints : 0 ≤ user.loyaltyPoints) (hspent : 0 ≤ F.value spent)
    (hcount : completed + cancelled ≤ total) :
    computeAiScore F.toGuestFloat user total completed cancelled spent =
      min 100 (rawScore user total completed cancelled (F.value spent)) := by
  rw [computeAiScore_eq]
  have hraw := (rawScore_range hpoints hspent hcount).1
  exact max_eq_right (le_min (by decide) hraw)

/-! ### A better guest never scores less -/

/-- Two guests with as many bookings, of whom the second has the better record. -/
structure NoWorse (user user' : User) (completed cancelled completed' cancelled' : ℕ)
    (spent spent' : ℚ) : Prop where
  points : user.loyaltyPoints ≤ user'.loyaltyPoints
  spent : spent ≤ spent'
  vip : user.vipStatus = true → user'.vipStatus = true
  banned : user'.isBanned = true → user.isBanned = true
  completed : completed ≤ completed'
  cancelled : cancelled' ≤ cancelled

theorem computeAiScore_le (F : ExactGuestFloat) {user user' : User} (total : ℕ)
    {completed cancelled completed' cancelled' : ℕ} {spent spent' : F.Carrier}
    (h : NoWorse user user' completed cancelled completed' cancelled' (F.value spent)
      (F.value spent')) :
    computeAiScore F.toGuestFloat user total completed cancelled spent ≤
      computeAiScore F.toGuestFloat user' total completed' cancelled' spent' := by
  rw [computeAiScore_eq, computeAiScore_eq]
  apply clampScore_mono
  have hpoints := pointsBonus_mono h.points
  have hspent := spendBonus_mono h.spent
  have hvip := statusTerm_mono 10 h.vip
  have hbanned := statusTerm_mono 30 h.banned
  have hcompleted := rateTerm_mono h.completed total
  have hcancelled := rateTerm_mono h.cancelled total
  unfold rawScore
  omega

/-- `rest` counts the cancelled bookings beside the one that becomes completed. -/
structure FairScore (F : ExactGuestFloat) (user : User) (total completed cancelled : ℕ)
    (spent : F.Carrier) : Prop where
  nonneg : 0 ≤ computeAiScore F.toGuestFloat user total completed cancelled spent
  le_hundred : computeAiScore F.toGuestFloat user total completed cancelled spent ≤ 100
  points : ∀ points, user.loyaltyPoints ≤ points →
    computeAiScore F.toGuestFloat user total completed cancelled spent ≤
      computeAiScore F.toGuestFloat { user with loyaltyPoints := points } total completed
        cancelled spent
  spend : ∀ more, F.value spent ≤ F.value more →
    computeAiScore F.toGuestFloat user total completed cancelled spent ≤
      computeAiScore F.toGuestFloat user total completed cancelled more
  vip : computeAiScore F.toGuestFloat user total completed cancelled spent ≤
    computeAiScore F.toGuestFloat { user with vipStatus := true } total completed cancelled spent
  completes : ∀ rest, cancelled = rest + 1 →
    computeAiScore F.toGuestFloat user total completed cancelled spent ≤
      computeAiScore F.toGuestFloat user total (completed + 1) rest spent
  banned : computeAiScore F.toGuestFloat { user with isBanned := true } total completed cancelled
    spent ≤ computeAiScore F.toGuestFloat user total completed cancelled spent

theorem aiScore_fair (F : ExactGuestFloat) (user : User) (total completed cancelled : ℕ)
    (spent : F.Carrier) : FairScore F user total completed cancelled spent where
  nonneg := by
    rw [computeAiScore_eq]
    exact (clampScore_range _).1
  le_hundred := by
    rw [computeAiScore_eq]
    exact (clampScore_range _).2
  points points h := computeAiScore_le F total ⟨h, le_rfl, id, id, le_rfl, le_rfl⟩
  spend more h := computeAiScore_le F total ⟨le_rfl, h, id, id, le_rfl, le_rfl⟩
  vip := computeAiScore_le F total ⟨le_rfl, le_rfl, fun _ => rfl, id, le_rfl, le_rfl⟩
  completes rest h := by
    have hrest : rest ≤ cancelled := by rw [h]; exact Nat.le_succ rest
    exact computeAiScore_le F total ⟨le_rfl, le_rfl, id, id, Nat.le_succ _, hrest⟩
  banned := computeAiScore_le F total ⟨le_rfl, le_rfl, id, fun _ => rfl, le_rfl, le_rfl⟩

def exactGuests : ExactGuestFloat where
  toGuestFloat := exactFloat
  value := fun (x : ℚ) => x
  value_ofRat := fun _ => rfl
  value_mul := fun _ _ => rfl
  value_div := fun _ _ => rfl
  toInt_value := fun _ => rfl

-- of three bookings, one cancelled: 50 + 3 + 13 - 6 + 2
example : computeAiScore exactGuests.toGuestFloat
    { sampleUser .guest "a@x.org" none with loyaltyPoints := 1000 } 3 2 1 (700 : ℚ) = 62 := by
  decide +kernel

end HotelMs
