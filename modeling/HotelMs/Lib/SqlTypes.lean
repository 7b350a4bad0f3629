import Mathlib.Algebra.BigOperators.Group.Finset.Basic
import Mathlib.Data.Rat.Floor
import Mathlib.Algebra.Order.Field.Rat
import Mathlib.Tactic.Linarith

/-!
# Column types of bounded size

A decimal is a rational. Storing it in a `NUMERIC(p, s)` column rounds it to
`s` decimals, half away from zero, and fails when the rounded value needs more
than `p` digits. A `VARCHAR(n)` column refuses longer texts unless all that is
too much are blanks.
-/

namespace SqlTypes

def roundHalfAway (q : ℚ) : ℤ := if 0 ≤ q then ⌊q + 1 / 2⌋ else -⌊-q + 1 / 2⌋

/-- The value a `NUMERIC(p, s)` column holds after `q` is stored in it; `none`
is the overflow error. -/
def numeric (p s : ℕ) (q : ℚ) : Option ℚ :=
  let c := roundHalfAway (q * 10 ^ s)
  if |c| < 10 ^ p then some (c / 10 ^ s) else none

theorem roundHalfAway_intCast (c : ℤ) : roundHalfAway c = c := by
  unfold roundHalfAway
  split
  · rw [Int.floor_eq_iff]
    constructor <;> linarith
  · rw [← Int.cast_neg, neg_eq_iff_eq_neg, Int.floor_eq_iff]
    constructor <;> linarith

theorem numeric_eq_some {p s : ℕ} {q v : ℚ} :
    numeric p s q = some v ↔
      |roundHalfAway (q * 10 ^ s)| < 10 ^ p ∧ v = roundHalfAway (q * 10 ^ s) / 10 ^ s := by
  unfold numeric
  dsimp only
  split
  next h => rw [Option.some.injEq, eq_comm, and_iff_right h]
  next h => exact iff_of_false (Option.some_ne_none v).symm fun hs => h hs.1

theorem roundHalfAway_pos_iff {q : ℚ} : 0 < roundHalfAway q ↔ 1 / 2 ≤ q := by
  have hhalf : ∀ x : ℚ, 0 < ⌊x + 1 / 2⌋ ↔ 1 / 2 ≤ x := by
    intro x
    rw [Int.lt_iff_add_one_le, zero_add, Int.le_floor, Int.cast_one]
    constructor <;> intro h <;> linarith
  unfold roundHalfAway
  split
  · exact hhalf q
  · have hfloor : 0 ≤ ⌊-q + 1 / 2⌋ := Int.floor_nonneg.mpr (by linarith)
    constructor <;> intro h
    · omega
    · linarith

/-! ### Decimals that fit their scale -/

/-- The decimal needs no more than `s` places. -/
def HasScale (s : ℕ) (q : ℚ) : Prop := ∃ c : ℤ, q * 10 ^ s = c

theorem hasScale_of_numeric {p s : ℕ} {q v : ℚ} (h : numeric p s q = some v) : HasScale s v := by
  obtain ⟨_, rfl⟩ := numeric_eq_some.mp h
  exact ⟨_, div_mul_cancel₀ _ (pow_ne_zero s (by norm_num))⟩

/-- Storing keeps the decimals that fit the scale, and only these. -/
theorem numeric_exact_iff {p s : ℕ} {q v : ℚ} (h : numeric p s q = some v) :
    v = q ↔ HasScale s q := by
  constructor
  · intro he
    rw [← he]
    exact hasScale_of_numeric h
  · intro hq
    obtain ⟨c, hc⟩ := hq
    obtain ⟨_, rfl⟩ := numeric_eq_some.mp h
    rw [hc, roundHalfAway_intCast, ← hc, mul_div_cancel_right₀ _ (pow_ne_zero s (by norm_num))]

theorem numeric_stored {p s : ℕ} {q v : ℚ} (h : numeric p s q = some v) :
    numeric p s v = some v := by
  obtain ⟨hfits, hv⟩ := numeric_eq_some.mp h
  have hpow : (10 : ℚ) ^ s ≠ 0 := pow_ne_zero s (by norm_num)
  have hround : roundHalfAway (v * 10 ^ s) = roundHalfAway (q * 10 ^ s) := by
    rw [hv, div_mul_cancel₀ _ hpow, roundHalfAway_intCast]
  rw [numeric_eq_some, hround]
  exact ⟨hfits, hv⟩

theorem numeric_pos_iff {p s : ℕ} {q v : ℚ} (h : numeric p s q = some v) :
    0 < v ↔ 1 / 2 ≤ q * 10 ^ s := by
  obtain ⟨_, rfl⟩ := numeric_eq_some.mp h
  have hpow : (0 : ℚ) < 10 ^ s := pow_pos (by norm_num) s
  rw [div_pos_iff_of_pos_right hpow, Int.cast_pos, roundHalfAway_pos_iff]

theorem HasScale.zero (s : ℕ) : HasScale s 0 := ⟨0, by rw [zero_mul, Int.cast_zero]⟩

theorem HasScale.add {s : ℕ} {q q' : ℚ} (h : HasScale s q) (h' : HasScale s q') :
    HasScale s (q + q') := by
  obtain ⟨c, hc⟩ := h
  obtain ⟨c', hc'⟩ := h'
  exact ⟨c + c', by rw [add_mul, hc, hc', Int.cast_add]⟩

theorem HasScale.neg {s : ℕ} {q : ℚ} (h : HasScale s q) : HasScale s (-q) := by
  obtain ⟨c, hc⟩ := h
  exact ⟨-c, by rw [neg_mul, hc, Int.cast_neg]⟩

theorem HasScale.add_iff {s : ℕ} {q q' : ℚ} (h : HasScale s q) :
    HasScale s (q + q') ↔ HasScale s q' := by
  constructor
  · intro hsum
    have hrest := h.neg.add hsum
    rwa [neg_add_cancel_left] at hrest
  · exact fun h' => h.add h'

theorem HasScale.sum_map {α : Type*} {s : ℕ} {f : α → ℚ} {rows : Multiset α}
    (h : ∀ a ∈ rows, HasScale s (f a)) : HasScale s (rows.map f).sum := by
  refine Multiset.sum_induction (HasScale s) _ (fun _ _ => HasScale.add) (HasScale.zero s) ?_
  intro x hx
  obtain ⟨a, ha, rfl⟩ := Multiset.mem_map.mp hx
  exact h a ha

theorem HasScale.sum {ι : Type*} {s : ℕ} {f : ι → ℚ} {t : Finset ι}
    (h : ∀ i ∈ t, HasScale s (f i)) : HasScale s (∑ i ∈ t, f i) :=
  HasScale.sum_map h

/-! ### Texts -/

def varchar (n : ℕ) (v : String) : Option String :=
  if v.length ≤ n then some v
  else if (v.toList.drop n).all (· = ' ') then some (String.ofList (v.toList.take n)) else none

end SqlTypes
