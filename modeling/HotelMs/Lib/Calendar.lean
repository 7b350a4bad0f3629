import HotelMs.Lib.Numerals
import Mathlib.Order.Monotone.Basic
import Mathlib.Order.SuccPred.Basic
import Mathlib.Algebra.Order.SuccPred
import Mathlib.Data.Int.SuccPred

/-!
# The proleptic Gregorian calendar

Days are numbered from 1 January of the year 1, which is day 1. A date is the
year, month and day of such a number, and it is written as in ISO 8601, years
without four digits with a sign and six.
-/

namespace Calendar

open Numerals

/-! ### Years and months -/

def Leap (y : ℤ) : Prop := y % 4 = 0 ∧ (y % 100 ≠ 0 ∨ y % 400 = 0)

instance (y : ℤ) : Decidable (Leap y) := inferInstanceAs (Decidable (_ ∧ _))

def yearLength (y : ℤ) : ℤ := if Leap y then 366 else 365

def monthLength (y : ℤ) (m : ℕ) : ℤ :=
  if m = 2 then (if Leap y then 29 else 28)
  else if m = 4 ∨ m = 6 ∨ m = 9 ∨ m = 11 then 30
  else 31

/-- The days before the year. -/
def yearStart (y : ℤ) : ℤ := 365 * (y - 1) + (y - 1) / 4 - (y - 1) / 100 + (y - 1) / 400

/-- The days of the year before its month `m`. -/
def monthStart (y : ℤ) : ℕ → ℤ
  | 0 | 1 => 0
  | m + 2 => monthStart y (m + 1) + monthLength y (m + 1)

theorem yearStart_succ (y : ℤ) : yearStart (y + 1) = yearStart y + yearLength y := by
  unfold yearStart yearLength
  by_cases h : Leap y
  · rw [if_pos h]
    unfold Leap at h
    omega
  · rw [if_neg h]
    unfold Leap at h
    omega

theorem yearLength_pos (y : ℤ) : 0 < yearLength y := by
  unfold yearLength
  split <;> decide

theorem yearStart_lt_iff {x y : ℤ} : yearStart x < yearStart y ↔ x < y := by
  have hmono : StrictMono yearStart := strictMono_int_of_lt_succ fun y => by
    have hpos := yearLength_pos y
    have hsucc := yearStart_succ y
    omega
  exact hmono.lt_iff_lt

theorem yearStart_mono {x y : ℤ} (h : x ≤ y) : yearStart x ≤ yearStart y :=
  not_lt.mp fun hlt => (yearStart_lt_iff.mp hlt).not_ge h

theorem monthLength_pos (y : ℤ) (m : ℕ) : 28 ≤ monthLength y m := by
  unfold monthLength
  split_ifs <;> decide

theorem monthStart_end (y : ℤ) : monthStart y 12 + monthLength y 12 = yearLength y := by
  by_cases h : Leap y
  · simp [monthStart, monthLength, yearLength, h]
  · simp [monthStart, monthLength, yearLength, h]

theorem monthStart_succ (y : ℤ) {m : ℕ} (hm : 1 ≤ m) :
    monthStart y (m + 1) = monthStart y m + monthLength y m := by
  obtain ⟨k, rfl⟩ := Nat.exists_eq_add_of_le' hm
  rfl

theorem monthStart_le (y : ℤ) {m : ℕ} (hm : 1 ≤ m) (k : ℕ) :
    monthStart y m ≤ monthStart y (m + k) := by
  induction k with
  | zero => exact le_rfl
  | succ k ih =>
    have hnext := monthStart_succ y (m := m + k) (by omega)
    have hpos := monthLength_pos y (m + k)
    rw [← Nat.add_assoc, hnext]
    omega

/-! ### Dates and their numbers -/

structure Date where
  year : ℤ
  month : ℕ
  day : ℤ
  deriving DecidableEq

structure Date.Valid (c : Date) : Prop where
  month : 1 ≤ c.month ∧ c.month ≤ 12
  day : 1 ≤ c.day ∧ c.day ≤ monthLength c.year c.month

def Date.ordinal (c : Date) : ℤ := yearStart c.year + monthStart c.year c.month + c.day

/-- The guess is a year off at most. -/
def yearOf (n : ℤ) : ℤ :=
  let y := 400 * n / 146097 + 1
  if n ≤ yearStart y then y - 1
  else if yearStart (y + 1) < n then y + 1
  else y

/-- The month and day of a day of the year, counted from the month `m` on. -/
def monthFrom (y : ℤ) : ℕ → ℕ → ℤ → ℕ × ℤ
  | 0, m, d => (m, d)
  | fuel + 1, m, d =>
    if d ≤ monthLength y m then (m, d) else monthFrom y fuel (m + 1) (d - monthLength y m)

def dateOf (n : ℤ) : Date :=
  let y := yearOf n
  let md := monthFrom y 11 1 (n - yearStart y)
  ⟨y, md.1, md.2⟩

theorem yearOf_spec (n : ℤ) : yearStart (yearOf n) < n ∧ n ≤ yearStart (yearOf n + 1) := by
  have hlow : yearStart (400 * n / 146097 + 1) ≤ n := by
    unfold yearStart
    omega
  have hhigh : n - 1 ≤ yearStart (400 * n / 146097 + 1 + 1) := by
    unfold yearStart
    omega
  have hbefore := yearStart_succ (400 * n / 146097 + 1 - 1)
  have hafter := yearStart_succ (400 * n / 146097 + 1 + 1)
  have hpos := yearLength_pos (400 * n / 146097 + 1 - 1)
  have hpos' := yearLength_pos (400 * n / 146097 + 1 + 1)
  rw [Int.sub_add_cancel] at hbefore
  unfold yearOf
  dsimp only
  split_ifs with hless hmore
  · rw [Int.sub_add_cancel]
    omega
  · omega
  · omega

theorem yearOf_unique {n y : ℤ} (hlow : yearStart y < n) (hhigh : n ≤ yearStart (y + 1)) :
    yearOf n = y := by
  obtain ⟨hlow', hhigh'⟩ := yearOf_spec n
  have hle : yearOf n < y + 1 := yearStart_lt_iff.mp (hlow'.trans_le hhigh)
  have hge : y < yearOf n + 1 := yearStart_lt_iff.mp (hlow.trans_le hhigh')
  omega

theorem monthFrom_spec (y : ℤ) {fuel m : ℕ} {d : ℤ} (hm : 1 ≤ m) (hfuel : m + fuel = 12)
    (hd : 1 ≤ d) (hend : monthStart y m + d ≤ yearLength y) :
    let md := monthFrom y fuel m d
    (1 ≤ md.1 ∧ md.1 ≤ 12) ∧ (1 ≤ md.2 ∧ md.2 ≤ monthLength y md.1) ∧
      monthStart y md.1 + md.2 = monthStart y m + d := by
  induction fuel generalizing m d with
  | zero =>
    have hlast := monthStart_end y
    obtain rfl : m = 12 := hfuel
    refine ⟨⟨hm, le_rfl⟩, ⟨hd, ?_⟩, rfl⟩
    show d ≤ monthLength y 12
    omega
  | succ fuel ih =>
    unfold monthFrom
    split_ifs with hin
    · exact ⟨⟨hm, by omega⟩, ⟨hd, hin⟩, rfl⟩
    · have hnext := monthStart_succ y hm
      obtain ⟨hmonth, hday, hsum⟩ := ih (m := m + 1) (d := d - monthLength y m) (by omega)
        (by omega) (by omega) (by omega)
      refine ⟨hmonth, hday, hsum.trans ?_⟩
      omega

theorem monthFrom_start (y : ℤ) {fuel m k : ℕ} {d : ℤ} (hm : 1 ≤ m) (hk : k ≤ fuel) (hd : 1 ≤ d)
    (hin : d ≤ monthLength y (m + k)) :
    monthFrom y fuel m (monthStart y (m + k) - monthStart y m + d) = (m + k, d) := by
  induction k generalizing fuel m with
  | zero =>
    have hsame : monthStart y (m + 0) - monthStart y m + d = d := by
      rw [Nat.add_zero]
      omega
    rw [hsame]
    cases fuel with
    | zero => rfl
    | succ fuel => exact if_pos hin
  | succ k ih =>
    obtain ⟨fuel, rfl⟩ := Nat.exists_eq_add_of_le' (Nat.lt_of_lt_of_le (Nat.succ_pos k) hk)
    have hnext := monthStart_succ y hm
    have hlater := monthStart_le y (m := m + 1) (by omega) k
    have hindex : m + (k + 1) = m + 1 + k := by omega
    rw [hindex] at hin ⊢
    have hmore : ¬monthStart y (m + 1 + k) - monthStart y m + d ≤ monthLength y m := by omega
    have hrest : monthStart y (m + 1 + k) - monthStart y m + d - monthLength y m =
        monthStart y (m + 1 + k) - monthStart y (m + 1) + d := by omega
    rw [monthFrom, if_neg hmore, hrest]
    exact ih (by omega) (by omega) hin

theorem dateOf_spec (n : ℤ) : (dateOf n).Valid ∧ (dateOf n).ordinal = n := by
  obtain ⟨hlow, hhigh⟩ := yearOf_spec n
  rw [yearStart_succ] at hhigh
  have hfirst : monthStart (yearOf n) 1 = 0 := rfl
  have hpast : 1 ≤ n - yearStart (yearOf n) := by omega
  have hinside : monthStart (yearOf n) 1 + (n - yearStart (yearOf n)) ≤ yearLength (yearOf n) := by
    omega
  have hmonths : 1 + 11 = 12 := rfl
  obtain ⟨hmonth, hday, hsum⟩ := monthFrom_spec (yearOf n) le_rfl hmonths hpast hinside
  refine ⟨⟨hmonth, hday⟩, ?_⟩
  unfold Date.ordinal dateOf
  dsimp only at hsum ⊢
  omega

theorem dateOf_valid (n : ℤ) : (dateOf n).Valid := (dateOf_spec n).1

theorem ordinal_dateOf (n : ℤ) : (dateOf n).ordinal = n := (dateOf_spec n).2

theorem dateOf_ordinal {c : Date} (h : c.Valid) : dateOf c.ordinal = c := by
  obtain ⟨y, m, d⟩ := c
  obtain ⟨⟨hm, hm'⟩, hd, hd'⟩ := h
  dsimp only at hm hm' hd hd'
  obtain ⟨k, rfl⟩ := Nat.exists_eq_add_of_le hm
  have hfirst : monthStart y 1 = 0 := rfl
  have hstart := monthStart_le y le_rfl k
  have hrest := monthStart_le y (m := 1 + k) (by omega) (11 - k)
  have hlast := monthStart_end y
  have hindex : 1 + k + (11 - k) = 12 := by omega
  rw [hindex] at hrest
  have hend : monthStart y (1 + k) + d ≤ yearLength y := by
    by_cases htop : k = 11
    · subst htop
      exact (Int.add_le_add_left hd' _).trans hlast.le
    · have hnext := monthStart_succ y (m := 1 + k) (by omega)
      have hbelow := monthStart_le y (m := 1 + k + 1) (by omega) (10 - k)
      have hindex' : 1 + k + 1 + (10 - k) = 12 := by omega
      have hpos := monthLength_pos y 12
      rw [hindex'] at hbelow
      omega
  have hyear : yearOf (Date.ordinal ⟨y, 1 + k, d⟩) = y := by
    unfold Date.ordinal
    dsimp only
    refine yearOf_unique (by omega) ?_
    rw [yearStart_succ]
    omega
  have hk : k ≤ 11 := by omega
  have hmonth := monthFrom_start y le_rfl hk hd hd'
  have hday : Date.ordinal ⟨y, 1 + k, d⟩ - yearStart y =
      monthStart y (1 + k) - monthStart y 1 + d := by
    unfold Date.ordinal
    dsimp only
    omega
  unfold dateOf
  dsimp only
  rw [hyear, hday, hmonth]

/-! ### ISO 8601 -/

def yearText (y : ℤ) : List Char :=
  if 0 ≤ y ∧ y < 10000 then padded 4 y.toNat
  else (if y < 0 then '-' else '+') :: padded 6 y.natAbs

def Date.text (c : Date) : List Char :=
  yearText c.year ++ '-' :: (padded 2 c.month ++ '-' :: padded 2 c.day.toNat)

/-- The text of the day `n`. -/
def isoText (n : ℤ) : List Char := (dateOf n).text

/-- `-000000` is no year. -/
def readYear (text : List Char) : Option (ℤ × List Char) :=
  match text with
  | '+' :: text => (fixed 6 text).map fun r => ((r.1 : ℤ), r.2)
  | '-' :: text => (fixed 6 text).bind fun r => if r.1 = 0 then none else some (-(r.1 : ℤ), r.2)
  | text => (fixed 4 text).map fun r => ((r.1 : ℤ), r.2)

instance (c : Date) : Decidable c.Valid :=
  decidable_of_iff ((1 ≤ c.month ∧ c.month ≤ 12) ∧ (1 ≤ c.day ∧ c.day ≤ monthLength c.year c.month))
    ⟨fun h => ⟨h.1, h.2⟩, fun h => ⟨h.month, h.day⟩⟩

def readDate (text : List Char) : Option Date := do
  let (year, text) ← readYear text
  let text ← expect '-' text
  let (month, text) ← fixed 2 text
  let text ← expect '-' text
  let (day, text) ← fixed 2 text
  let c : Date := ⟨year, month, day⟩
  if text = [] ∧ c.Valid then some c else none

theorem readDate_valid {text : List Char} {c : Date} (h : readDate text = some c) : c.Valid := by
  unfold readDate at h
  simp only [Option.bind_eq_bind, Option.bind_eq_some_iff] at h
  obtain ⟨_, _, _, _, _, _, _, _, _, _, hlast⟩ := h
  split at hlast
  next hvalid =>
    cases hlast
    exact hvalid.2
  next => cases hlast

theorem readYear_yearText {y : ℤ} (h : y.natAbs < 10 ^ 6) (rest : List Char) :
    readYear (yearText y ++ rest) = some (y, rest) := by
  unfold yearText
  split_ifs with hfour hneg
  · have hfixed : fixed 4 (padded 4 y.toNat ++ rest) = some (y.toNat, rest) :=
      fixed_padded (by decide) (by omega)
    have hlength : (padded 4 y.toNat).length = 4 := length_padded (by decide) (by omega)
    obtain ⟨c, digits, htext⟩ := List.exists_cons_of_length_eq_add_one hlength
    have hc : c.isDigit = true := isDigit_padded (htext ▸ List.mem_cons_self)
    have hplus : c ≠ '+' := ne_of_isDigit hc rfl
    have hminus : c ≠ '-' := ne_of_isDigit hc rfl
    have hread : readYear (padded 4 y.toNat ++ rest) =
        (fixed 4 (padded 4 y.toNat ++ rest)).map fun r => ((r.1 : ℤ), r.2) := by
      rw [htext, List.cons_append]
      unfold readYear
      split
      next heq => exact absurd (List.cons.inj heq).1 hplus
      next heq => exact absurd (List.cons.inj heq).1 hminus
      next => rfl
    rw [hread, hfixed, Option.map_some, Int.toNat_of_nonneg hfour.1]
  · show (fixed 6 (padded 6 y.natAbs ++ rest)).bind _ = _
    rw [fixed_padded (by decide) h, Option.bind_some, if_neg (by omega)]
    have habs : -(y.natAbs : ℤ) = y := by omega
    rw [habs]
  · show (fixed 6 (padded 6 y.natAbs ++ rest)).map _ = _
    rw [fixed_padded (by decide) h, Option.map_some]
    have habs : (y.natAbs : ℤ) = y := by omega
    rw [habs]

theorem readDate_text {c : Date} (h : c.Valid) (hyear : c.year.natAbs < 10 ^ 6) :
    readDate c.text = some c := by
  have hlong : monthLength c.year c.month ≤ 31 := by
    unfold monthLength
    split_ifs <;> decide
  have hmonth := h.month
  have hday := h.day
  unfold readDate Date.text
  have hread : fixed 2 (padded 2 c.day.toNat ++ []) = some (c.day.toNat, []) :=
    fixed_padded (by decide) (by omega)
  rw [List.append_nil] at hread
  simp only [readYear_yearText hyear, Option.bind_eq_bind, Option.bind_some, expect_self]
  rw [fixed_padded (by decide) (by omega)]
  simp only [Option.bind_some, expect_self, hread]
  rw [Int.toNat_of_nonneg (by omega)]
  exact if_pos ⟨trivial, h⟩

/-- Days up to 3 · 10⁸ have years of six digits. -/
theorem natAbs_year_lt {n : ℤ} (h : n.natAbs ≤ 3 * 10 ^ 8) :
    (dateOf n).year.natAbs < 10 ^ 6 := by
  obtain ⟨hlow, hhigh⟩ := yearOf_spec n
  show (yearOf n).natAbs < 10 ^ 6
  by_contra hge
  rcases Int.le_total 0 (yearOf n) with hpos | hneg
  · have hfar : (10 ^ 6 : ℤ) ≤ yearOf n := by omega
    have hstart := yearStart_mono hfar
    have hvalue : yearStart (10 ^ 6) = 365242134 := by decide
    omega
  · have hfar : yearOf n + 1 ≤ -999999 := by omega
    have hstart := yearStart_mono hfar
    have hvalue : yearStart (-999999) = -365242500 := by decide
    omega

theorem readDate_isoText {n : ℤ} (h : (dateOf n).year.natAbs < 10 ^ 6) :
    (readDate (isoText n)).map Date.ordinal = some n := by
  rw [isoText, readDate_text (dateOf_valid n) h, Option.map_some, ordinal_dateOf]

theorem isoText_injective {n k : ℤ} (hn : n.natAbs ≤ 3 * 10 ^ 8) (hk : k.natAbs ≤ 3 * 10 ^ 8)
    (h : isoText n = isoText k) : n = k := by
  have hread := readDate_isoText (natAbs_year_lt hn)
  rw [h, readDate_isoText (natAbs_year_lt hk)] at hread
  exact (Option.some_inj.mp hread).symm

end Calendar
