import HotelMs.Lib.Calendar
import Mathlib.Data.Char
import Mathlib.Data.List.Lex

/-!
# The order of written dates

Texts made of blocks of one width are ordered block by block, and numerals of
one width as their numbers, so dates with years of four digits are ordered as
their texts.
-/

namespace Numerals

theorem append_lt_append_iff {xs ys us vs : List Char} (h : xs.length = ys.length) :
    xs ++ us < ys ++ vs ↔ xs < ys ∨ xs = ys ∧ us < vs := by
  induction xs generalizing ys with
  | nil =>
    obtain rfl : ys = [] := List.length_eq_zero_iff.mp h.symm
    simp
  | cons x xs ih =>
    cases ys with
    | nil => cases h
    | cons y ys =>
      have hlength : xs.length = ys.length := Nat.succ.inj h
      rw [List.cons_append, List.cons_append, List.cons_lt_cons_iff, List.cons_lt_cons_iff,
        ih hlength, List.cons.injEq]
      tauto

theorem number_cons (c : Char) (cs : List Char) :
    number (c :: cs) = (c.toNat - '0'.toNat) * 10 ^ cs.length + number cs := by
  unfold number
  rw [Nat.ofDigitChars_cons, Nat.ofDigitChars_eq_ofDigitChars_zero]
  ring

theorem digit_le {c : Char} (h : c.isDigit = true) : 48 ≤ c.toNat ∧ c.toNat ≤ 57 := by
  simpa [Char.isDigit, UInt32.le_iff_toNat_le] using h

theorem number_lt {cs : List Char} (h : ∀ c ∈ cs, c.isDigit = true) :
    number cs < 10 ^ cs.length := by
  induction cs with
  | nil => decide
  | cons c cs ih =>
    have hrest := ih fun x hx => h x (List.mem_cons_of_mem _ hx)
    have hdigit := digit_le (h c List.mem_cons_self)
    have hzero : '0'.toNat = 48 := rfl
    have hfirst : (c.toNat - '0'.toNat) * 10 ^ cs.length ≤ 9 * 10 ^ cs.length :=
      Nat.mul_le_mul_right _ (by omega)
    rw [number_cons, List.length_cons, Nat.pow_succ]
    omega

/-- Digits of one width are ordered as the number they write. -/
theorem number_lt_of_lt {xs ys : List Char} (hx : ∀ c ∈ xs, c.isDigit = true)
    (hy : ∀ c ∈ ys, c.isDigit = true) (hlength : xs.length = ys.length) (h : xs < ys) :
    number xs < number ys := by
  induction xs generalizing ys with
  | nil =>
    obtain rfl : ys = [] := List.length_eq_zero_iff.mp hlength.symm
    exact absurd h (List.lt_irrefl _)
  | cons x xs ih =>
    cases ys with
    | nil => cases hlength
    | cons y ys =>
      have hlength' : xs.length = ys.length := Nat.succ.inj hlength
      have hx' : ∀ c ∈ xs, c.isDigit = true := fun c hc => hx c (List.mem_cons_of_mem _ hc)
      have hy' : ∀ c ∈ ys, c.isDigit = true := fun c hc => hy c (List.mem_cons_of_mem _ hc)
      rw [number_cons, number_cons, hlength']
      rcases List.cons_lt_cons_iff.mp h with hfirst | ⟨rfl, hrest⟩
      · have hless : x.toNat < y.toNat := hfirst
        have hlow := digit_le (hx x List.mem_cons_self)
        have hbound := number_lt hx'
        have hzero : '0'.toNat = 48 := rfl
        have hstep : (x.toNat - '0'.toNat + 1) * 10 ^ ys.length ≤
            (y.toNat - '0'.toNat) * 10 ^ ys.length := Nat.mul_le_mul_right _ (by omega)
        rw [hlength'] at hbound
        rw [Nat.add_mul] at hstep
        omega
      · exact Nat.add_lt_add_left (ih hx' hy' hlength' hrest) _

theorem padded_lt {w n m : ℕ} (hw : 0 < w) (hm : m < 10 ^ w) (h : n < m) :
    padded w n < padded w m := by
  have hn : n < 10 ^ w := h.trans hm
  have hlength : (padded w n).length = (padded w m).length := by
    rw [length_padded hw hn, length_padded hw hm]
  rcases lt_trichotomy (padded w n) (padded w m) with hless | heq | hmore
  · exact hless
  · have hsame := congrArg number heq
    rw [number_padded, number_padded] at hsame
    omega
  · have hback := number_lt_of_lt (fun _ => isDigit_padded) (fun _ => isDigit_padded)
      hlength.symm hmore
    rw [number_padded, number_padded] at hback
    omega

end Numerals

namespace Calendar

open Numerals

theorem ordinal_in_year {c : Date} (h : c.Valid) :
    yearStart c.year < c.ordinal ∧ c.ordinal ≤ yearStart (c.year + 1) := by
  have hspec := yearOf_spec c.ordinal
  have hyear : yearOf c.ordinal = c.year := congrArg Date.year (dateOf_ordinal h)
  rwa [hyear] at hspec

theorem monthStart_lt_month {y : ℤ} {m m' : ℕ} (hm : 1 ≤ m) (h : m < m') :
    monthStart y m + monthLength y m ≤ monthStart y m' := by
  obtain ⟨k, rfl⟩ := Nat.exists_eq_add_of_lt h
  have hle := monthStart_le y (m := m + 1) (by omega) k
  rw [monthStart_succ y hm] at hle
  have hindex : m + 1 + k = m + k + 1 := by omega
  rwa [hindex] at hle

/-- Dates are ordered by year, then month, then day. -/
theorem lt_of_ordinal_lt {c c' : Date} (hc : c.Valid) (hc' : c'.Valid)
    (h : c.ordinal < c'.ordinal) : c.year < c'.year ∨ c.year = c'.year ∧
      (c.month < c'.month ∨ c.month = c'.month ∧ c.day < c'.day) := by
  have hin := ordinal_in_year hc
  have hin' := ordinal_in_year hc'
  rcases lt_trichotomy c.year c'.year with hyear | hyear | hyear
  · exact Or.inl hyear
  · refine Or.inr ⟨hyear, ?_⟩
    unfold Date.ordinal at h
    rw [hyear] at h
    have hday := hc.day
    have hday' := hc'.day
    rcases lt_trichotomy c.month c'.month with hmonth | hmonth | hmonth
    · exact Or.inl hmonth
    · rw [hmonth] at h
      exact Or.inr ⟨hmonth, by omega⟩
    · have hstart := monthStart_lt_month (y := c'.year) hc'.month.1 hmonth
      omega
  · have hback := yearStart_mono (show c'.year + 1 ≤ c.year by omega)
    omega

theorem yearText_four {y : ℤ} (h : 0 ≤ y ∧ y < 10000) : yearText y = padded 4 y.toNat := if_pos h

theorem text_lt {c c' : Date} (hc : c.Valid) (hc' : c'.Valid) (hpos : 0 ≤ c.year)
    (hfour : c'.year < 10000) (h : c.ordinal < c'.ordinal) : c.text < c'.text := by
  have hlong : ∀ d : Date, d.Valid → d.month < 10 ^ 2 ∧ d.day.toNat < 10 ^ 2 := by
    intro d hd
    have hmonth := hd.month
    have hday := hd.day
    have hlength : monthLength d.year d.month ≤ 31 := by
      unfold monthLength
      split_ifs <;> decide
    omega
  have hbefore := lt_of_ordinal_lt hc hc' h
  have hyears : 0 ≤ c'.year ∧ c.year < 10000 := by omega
  have hlength : ∀ d : Date, 0 ≤ d.year → d.year < 10000 → (yearText d.year).length = 4 := by
    intro d hd hd'
    rw [yearText_four ⟨hd, hd'⟩]
    exact length_padded (by decide) (by omega)
  have hlengthMonth : (padded 2 c.month).length = (padded 2 c'.month).length := by
    rw [length_padded (by decide) (hlong c hc).1, length_padded (by decide) (hlong c' hc').1]
  unfold Date.text
  rw [append_lt_append_iff ((hlength c hpos hyears.2).trans (hlength c' hyears.1 hfour).symm),
    List.cons_lt_cons_iff, append_lt_append_iff hlengthMonth, List.cons_lt_cons_iff]
  rcases hbefore with hyear | ⟨hyear, hmonth | ⟨hmonth, hday⟩⟩
  · left
    rw [yearText_four ⟨hpos, hyears.2⟩, yearText_four ⟨hyears.1, hfour⟩]
    exact padded_lt (by decide) (by omega) (by omega)
  · exact Or.inr ⟨congrArg yearText hyear,
      Or.inr ⟨rfl, Or.inl (padded_lt (by decide) (hlong c' hc').1 hmonth)⟩⟩
  · have hdays : c.day.toNat < c'.day.toNat := by
      have hfirst := hc.day.1
      omega
    exact Or.inr ⟨congrArg yearText hyear, Or.inr ⟨rfl, Or.inr ⟨congrArg (padded 2) hmonth,
      Or.inr ⟨rfl, padded_lt (by decide) (hlong c' hc').2 hdays⟩⟩⟩⟩

theorem text_le_iff {c c' : Date} (hc : c.Valid) (hc' : c'.Valid)
    (hfour : 0 ≤ c.year ∧ c.year < 10000) (hfour' : 0 ≤ c'.year ∧ c'.year < 10000) :
    c.text ≤ c'.text ↔ c.ordinal ≤ c'.ordinal := by
  constructor
  · intro h
    by_contra hgt
    exact (text_lt hc' hc hfour'.1 hfour.2 (not_le.mp hgt)).not_ge h
  · intro h
    rcases h.lt_or_eq with hlt | heq
    · exact (text_lt hc hc' hfour.1 hfour'.2 hlt).le
    · have hsame : c = c' := by rw [← dateOf_ordinal hc, ← dateOf_ordinal hc', heq]
      exact (congrArg Date.text hsame).le

theorem year_range {n : ℤ} (hlow : 1 ≤ n) (hhigh : n ≤ 3652059) :
    1 ≤ (dateOf n).year ∧ (dateOf n).year < 10000 := by
  obtain ⟨hstart, hend⟩ := yearOf_spec n
  have hfirst : yearStart 1 = 0 := rfl
  have hlast : yearStart 10000 = 3652059 := rfl
  constructor
  · have hpast : yearStart 1 < yearStart (yearOf n + 1) := by omega
    exact Int.lt_add_one_iff.mp (yearStart_lt_iff.mp hpast)
  · exact yearStart_lt_iff.mp (hstart.trans_le (hhigh.trans hlast.ge))

/-- Days of the years 1 to 9999 are ordered as their texts. -/
theorem isoText_le_iff {n k : ℤ} (hn : 1 ≤ n ∧ n ≤ 3652059) (hk : 1 ≤ k ∧ k ≤ 3652059) :
    isoText n ≤ isoText k ↔ n ≤ k := by
  have hyear := year_range hn.1 hn.2
  have hyear' := year_range hk.1 hk.2
  have hiff := text_le_iff (dateOf_valid n) (dateOf_valid k) ⟨by omega, hyear.2⟩
    ⟨by omega, hyear'.2⟩
  rwa [ordinal_dateOf, ordinal_dateOf] at hiff

/-- A number without leading zeros fills the width its digits need. -/
theorem padded_four {n : ℕ} (h : 1000 ≤ n) (h' : n < 10000) : padded 4 n = natText n := by
  have hle : (natText n).length ≤ 4 := (Nat.length_toDigits_le_iff (by decide) (by decide)).mpr h'
  have hgt : ¬(natText n).length ≤ 3 := fun hshort =>
    absurd ((Nat.length_toDigits_le_iff (by decide) (by decide)).mp hshort) (by omega)
  have hfull : 4 - (natText n).length = 0 := by omega
  unfold padded
  rw [hfull, List.replicate_zero, List.nil_append]

end Calendar
