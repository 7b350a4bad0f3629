import Mathlib.Algebra.Order.Ring.Int
import Mathlib.Data.List.TakeWhile
import Mathlib.Tactic.Ring

/-!
# Decimal numerals

Written with the digits they need or padded with zeros to a width, and read back.
-/

namespace Numerals

def natText (n : ℕ) : List Char := Nat.toDigits 10 n

/-- `f"{n:0w}"` -/
def padded (w n : ℕ) : List Char := List.replicate (w - (natText n).length) '0' ++ natText n

def number (cs : List Char) : ℕ := Nat.ofDigitChars 10 cs 0

def intText (i : ℤ) : List Char := if i < 0 then '-' :: natText i.natAbs else natText i.natAbs

theorem isDigit_natText {n : ℕ} {c : Char} (h : c ∈ natText n) : c.isDigit = true :=
  Nat.isDigit_of_mem_toDigits (by decide) (by decide) h

theorem natText_ne_nil (n : ℕ) : natText n ≠ [] := Nat.toDigits_ne_nil

@[simp] theorem number_natText (n : ℕ) : number (natText n) = n := Nat.ofDigitChars_ten_toDigits

theorem isDigit_padded {w n : ℕ} {c : Char} (h : c ∈ padded w n) : c.isDigit = true := by
  rcases List.mem_append.mp h with hzero | hdigit
  · rw [List.eq_of_mem_replicate hzero]
    decide
  · exact isDigit_natText hdigit

@[simp] theorem number_padded (w n : ℕ) : number (padded w n) = n := by
  unfold number padded
  rw [Nat.ofDigitChars_append, Nat.ofDigitChars_replicate_zero, Nat.mul_zero]
  exact number_natText n

theorem length_padded {w n : ℕ} (hw : 0 < w) (hn : n < 10 ^ w) : (padded w n).length = w := by
  have hle : (natText n).length ≤ w := (Nat.length_toDigits_le_iff (by decide) hw).mpr hn
  unfold padded
  rw [List.length_append, List.length_replicate]
  omega

theorem number_append_padded {w n m : ℕ} (hw : 0 < w) (hn : n < 10 ^ w) :
    number (natText m ++ padded w n) = m * 10 ^ w + n := by
  unfold number
  rw [Nat.ofDigitChars_append, Nat.ofDigitChars_eq_ofDigitChars_zero, length_padded hw hn]
  have hm : Nat.ofDigitChars 10 (natText m) 0 = m := number_natText m
  have hp : Nat.ofDigitChars 10 (padded w n) 0 = n := number_padded w n
  rw [hm, hp, Nat.mul_comm]

/-! ### Reading -/

def expect (c : Char) : List Char → Option (List Char)
  | [] => none
  | c' :: cs => if c' = c then some cs else none

theorem expect_self (c : Char) (cs : List Char) : expect c (c :: cs) = some cs := if_pos rfl

theorem expect_of_ne {c c' : Char} {cs : List Char} (h : c' ≠ c) : expect c (c' :: cs) = none :=
  if_neg h

theorem ne_of_isDigit {c d : Char} (hc : c.isDigit = true) (hd : d.isDigit = false) : c ≠ d := by
  rintro rfl
  rw [hc] at hd
  cases hd

/-- The digits in front, and what follows them. -/
def digits (cs : List Char) : List Char × List Char :=
  (cs.takeWhile Char.isDigit, cs.dropWhile Char.isDigit)

def NoDigit (cs : List Char) : Prop := ∀ c rest, cs = c :: rest → c.isDigit = false

theorem noDigit_nil : NoDigit [] := fun _ _ h => by cases h

theorem noDigit_cons {c : Char} {cs : List Char} (h : c.isDigit = false) : NoDigit (c :: cs) := by
  intro c' rest heq
  cases heq
  exact h

theorem digits_append {ds rest : List Char} (hds : ∀ c ∈ ds, c.isDigit = true)
    (hrest : NoDigit rest) : digits (ds ++ rest) = (ds, rest) := by
  unfold digits
  rw [List.takeWhile_append_of_pos hds, List.dropWhile_append_of_pos hds]
  cases rest with
  | nil => simp
  | cons c cs =>
    have hc := hrest c cs rfl
    simp [hc]

/-- The numeral in front. A leading zero, a fraction or an exponent is refused. -/
def natural (cs : List Char) : Option (ℕ × List Char) :=
  let (ds, rest) := digits cs
  if natText (number ds) = ds ∧ rest.head? ≠ some '.' ∧ rest.head? ≠ some 'e' ∧
    rest.head? ≠ some 'E' then some (number ds, rest) else none

def integer : List Char → Option (ℤ × List Char)
  | '-' :: cs => (natural cs).map fun r => (-(r.1 : ℤ), r.2)
  | cs => (natural cs).map fun r => ((r.1 : ℤ), r.2)

/-- A numeral ends before this text. -/
def Ends (rest : List Char) : Prop := NoDigit rest ∧ rest.head? ≠ some '.' ∧
  rest.head? ≠ some 'e' ∧ rest.head? ≠ some 'E'

theorem ends_cons {c : Char} {cs : List Char} (hdigit : c.isDigit = false) (hpoint : c ≠ '.')
    (hlow : c ≠ 'e') (hhigh : c ≠ 'E') : Ends (c :: cs) := by
  refine ⟨noDigit_cons hdigit, ?_, ?_, ?_⟩
  · exact fun h => hpoint (Option.some.inj h)
  · exact fun h => hlow (Option.some.inj h)
  · exact fun h => hhigh (Option.some.inj h)

theorem ends_nil : Ends [] := by
  refine ⟨noDigit_nil, ?_, ?_, ?_⟩
  · exact fun h => by cases h
  · exact fun h => by cases h
  · exact fun h => by cases h

theorem natural_natText {n : ℕ} {rest : List Char} (h : Ends rest) :
    natural (natText n ++ rest) = some (n, rest) := by
  unfold natural
  rw [digits_append (fun _ => isDigit_natText) h.1]
  dsimp only
  rw [if_pos ⟨by rw [number_natText], h.2⟩, number_natText]

theorem head_natText (n : ℕ) : ∃ c cs, natText n = c :: cs ∧ c.isDigit = true := by
  cases htext : natText n with
  | nil => exact absurd htext (natText_ne_nil n)
  | cons c cs => exact ⟨c, cs, rfl, isDigit_natText (htext ▸ List.mem_cons_self)⟩

theorem integer_intText {i : ℤ} {rest : List Char} (h : Ends rest) :
    integer (intText i ++ rest) = some (i, rest) := by
  unfold intText
  split
  next hneg =>
    rw [List.cons_append, integer, natural_natText h, Option.map_some]
    have habs : -(i.natAbs : ℤ) = i := by omega
    rw [habs]
  next hpos =>
    obtain ⟨c, cs, htext, hc⟩ := head_natText i.natAbs
    have hminus : c ≠ '-' := by
      rintro rfl
      cases hc
    have hint : integer (natText i.natAbs ++ rest) =
        (natural (natText i.natAbs ++ rest)).map fun r => ((r.1 : ℤ), r.2) := by
      rw [htext, List.cons_append]
      unfold integer
      split
      next heq => exact absurd (List.cons.inj heq).1 hminus
      next => rfl
    rw [hint, natural_natText h, Option.map_some]
    have habs : (i.natAbs : ℤ) = i := by omega
    rw [habs]

theorem intText_injective {i j : ℤ} (h : intText i = intText j) : i = j := by
  have hi := integer_intText (i := i) ends_nil
  rw [h, integer_intText (i := j) ends_nil] at hi
  exact (congrArg Prod.fst (Option.some.inj hi)).symm

/-- Exactly `w` digits. -/
def fixed (w : ℕ) (cs : List Char) : Option (ℕ × List Char) :=
  if (cs.take w).length = w ∧ (cs.take w).all Char.isDigit then
    some (number (cs.take w), cs.drop w) else none

theorem fixed_padded {w n : ℕ} {rest : List Char} (hw : 0 < w) (hn : n < 10 ^ w) :
    fixed w (padded w n ++ rest) = some (n, rest) := by
  have hlen := length_padded hw hn
  unfold fixed
  rw [List.take_left' hlen, List.drop_left' hlen, number_padded, if_pos]
  exact ⟨hlen, List.all_eq_true.mpr fun _ => isDigit_padded⟩

end Numerals
