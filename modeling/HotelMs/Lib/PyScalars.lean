import HotelMs.Lib.Numerals
import Mathlib.Algebra.Order.Field.Rat

/-!
# Texts of decimals and datetimes

What `str` makes of a decimal and of a datetime with a time zone, and what a
validator reads from such a text.
-/

namespace PyScalars

open Numerals

/-! ### Decimals -/

/-- `coefficient / 10 ^ scale`. Up to six decimals `str` stays in plain notation. -/
structure Decimal where
  coefficient : ℤ
  scale : ℕ
  plain : scale ≤ 6
  deriving DecidableEq

def Decimal.value (d : Decimal) : ℚ := d.coefficient / 10 ^ d.scale

def unsigned (n scale : ℕ) : List Char :=
  if scale = 0 then natText n else natText (n / 10 ^ scale) ++ '.' :: padded scale (n % 10 ^ scale)

def Decimal.text (d : Decimal) : List Char :=
  if d.coefficient < 0 then '-' :: unsigned d.coefficient.natAbs d.scale
  else unsigned d.coefficient.natAbs d.scale

def Decimal.str (d : Decimal) : String := String.ofList d.text

/-- The coefficient and the number of decimals. An exponent is refused. -/
def readUnsigned (cs : List Char) : Option (ℕ × ℕ) :=
  let (whole, rest) := digits cs
  if whole = [] then none
  else match expect '.' rest with
    | none => if rest = [] then some (number whole, 0) else none
    | some rest =>
      let (part, rest) := digits rest
      if part ≠ [] ∧ rest = [] then some (number (whole ++ part), part.length) else none

def Decimal.ofParts (coefficient : ℤ) (scale : ℕ) : Option Decimal :=
  if h : scale ≤ 6 then some ⟨coefficient, scale, h⟩ else none

def Decimal.read (s : String) : Option Decimal :=
  match expect '-' s.toList with
  | some cs => (readUnsigned cs).bind fun r => Decimal.ofParts (-(r.1 : ℤ)) r.2
  | none => (readUnsigned s.toList).bind fun r => Decimal.ofParts r.1 r.2

theorem readUnsigned_unsigned (n scale : ℕ) :
    readUnsigned (unsigned n scale) = some (n, scale) := by
  unfold unsigned
  split
  next hzero =>
    have hdigits : digits (natText n ++ []) = (natText n, []) :=
      digits_append (fun _ => isDigit_natText) noDigit_nil
    rw [List.append_nil] at hdigits
    unfold readUnsigned
    rw [hdigits]
    dsimp only
    rw [if_neg (natText_ne_nil n), hzero, number_natText]
    rfl
  next hscale =>
    have hpos : 0 < scale := Nat.pos_of_ne_zero hscale
    have hlt : n % 10 ^ scale < 10 ^ scale := Nat.mod_lt n (Nat.pow_pos (by decide))
    have hlen := length_padded hpos hlt
    have hwhole : digits (natText (n / 10 ^ scale) ++ '.' :: padded scale (n % 10 ^ scale)) =
        (natText (n / 10 ^ scale), '.' :: padded scale (n % 10 ^ scale)) :=
      digits_append (fun _ => isDigit_natText) (noDigit_cons rfl)
    have hpart : digits (padded scale (n % 10 ^ scale) ++ []) =
        (padded scale (n % 10 ^ scale), []) :=
      digits_append (fun _ => isDigit_padded) noDigit_nil
    rw [List.append_nil] at hpart
    have hne : padded scale (n % 10 ^ scale) ≠ [] := by
      intro h
      rw [h] at hlen
      exact hscale hlen.symm
    unfold readUnsigned
    rw [hwhole]
    dsimp only
    rw [if_neg (natText_ne_nil _), expect_self]
    dsimp only
    rw [hpart]
    dsimp only
    rw [if_pos ⟨hne, rfl⟩, number_append_padded hpos hlt, hlen, Nat.div_add_mod']

theorem unsigned_start (n scale : ℕ) :
    ∃ c cs, unsigned n scale = c :: cs ∧ c.isDigit = true := by
  unfold unsigned
  split
  · exact head_natText n
  · obtain ⟨c, cs, htext, hc⟩ := head_natText (n / 10 ^ scale)
    rw [htext]
    exact ⟨c, _, rfl, hc⟩

theorem Decimal.ofParts_eq (d : Decimal) {coefficient : ℤ} (h : coefficient = d.coefficient) :
    Decimal.ofParts coefficient d.scale = some d := by
  unfold Decimal.ofParts
  rw [dif_pos d.plain, h]

@[simp] theorem Decimal.read_str (d : Decimal) : Decimal.read d.str = some d := by
  unfold Decimal.read Decimal.str Decimal.text
  rw [String.toList_ofList]
  split_ifs with hneg
  · have habs : -(d.coefficient.natAbs : ℤ) = d.coefficient := by omega
    rw [expect_self]
    dsimp only
    rw [readUnsigned_unsigned, Option.bind_some, Decimal.ofParts_eq d habs]
  · have habs : (d.coefficient.natAbs : ℤ) = d.coefficient := by omega
    obtain ⟨c, cs, htext, hc⟩ := unsigned_start d.coefficient.natAbs d.scale
    have hread := readUnsigned_unsigned d.coefficient.natAbs d.scale
    rw [htext] at hread ⊢
    rw [expect_of_ne (ne_of_isDigit hc rfl)]
    dsimp only
    rw [hread, Option.bind_some, Decimal.ofParts_eq d habs]

example : Decimal.str ⟨-41311, 6, by decide⟩ = "-0.041311" := by decide +kernel

/-! ### Datetimes -/

/-- The offset from UTC in minutes. -/
structure Moment where
  year : ℕ
  month : ℕ
  day : ℕ
  hour : ℕ
  minute : ℕ
  second : ℕ
  microsecond : ℕ
  offset : ℤ
  deriving DecidableEq

def isLeap (year : ℕ) : Bool := year % 4 == 0 && (year % 100 != 0 || year % 400 == 0)

def daysIn (year month : ℕ) : ℕ :=
  if month = 2 then (if isLeap year then 29 else 28)
  else if month = 4 ∨ month = 6 ∨ month = 9 ∨ month = 11 then 30
  else 31

structure Moment.Valid (m : Moment) : Prop where
  year : 1 ≤ m.year ∧ m.year < 10 ^ 4
  month : 1 ≤ m.month ∧ m.month ≤ 12
  day : 1 ≤ m.day ∧ m.day ≤ daysIn m.year m.month
  hour : m.hour < 24
  minute : m.minute < 60
  second : m.second < 60
  microsecond : m.microsecond < 10 ^ 6
  offset : -1440 < m.offset ∧ m.offset < 1440

theorem Moment.valid_iff (m : Moment) : m.Valid ↔ (1 ≤ m.year ∧ m.year < 10 ^ 4) ∧
    (1 ≤ m.month ∧ m.month ≤ 12) ∧ (1 ≤ m.day ∧ m.day ≤ daysIn m.year m.month) ∧
    m.hour < 24 ∧ m.minute < 60 ∧ m.second < 60 ∧ m.microsecond < 10 ^ 6 ∧
    (-1440 < m.offset ∧ m.offset < 1440) := by
  constructor
  · exact fun h => ⟨h.year, h.month, h.day, h.hour, h.minute, h.second, h.microsecond, h.offset⟩
  · rintro ⟨hy, hm, hd, hh, hmin, hs, hus, ho⟩
    exact ⟨hy, hm, hd, hh, hmin, hs, hus, ho⟩

instance (m : Moment) : Decidable m.Valid := decidable_of_iff _ m.valid_iff.symm

abbrev Datetime := { m : Moment // m.Valid }

def fractionText (microsecond : ℕ) : List Char :=
  if microsecond = 0 then [] else '.' :: padded 6 microsecond

def offsetText (offset : ℤ) : List Char :=
  (if offset < 0 then '-' else '+') ::
    (padded 2 (offset.natAbs / 60) ++ ':' :: padded 2 (offset.natAbs % 60))

/-- `isoformat(" ")` -/
def Moment.text (m : Moment) : List Char :=
  padded 4 m.year ++ '-' :: (padded 2 m.month ++ '-' :: (padded 2 m.day ++ ' ' ::
    (padded 2 m.hour ++ ':' :: (padded 2 m.minute ++ ':' :: (padded 2 m.second ++
      (fractionText m.microsecond ++ offsetText m.offset))))))

def Datetime.str (t : Datetime) : String := String.ofList t.val.text

def readFraction (cs : List Char) : Option (ℕ × List Char) :=
  match expect '.' cs with
  | some cs => fixed 6 cs
  | none => some (0, cs)

def readMinutes (cs : List Char) : Option ℤ := do
  let (hours, cs) ← fixed 2 cs
  let cs ← expect ':' cs
  let (minutes, cs) ← fixed 2 cs
  if cs = [] then some (hours * 60 + minutes) else none

def readOffset : List Char → Option ℤ
  | [] => none
  | c :: cs =>
    if c = '-' then (readMinutes cs).map fun n => -n
    else if c = '+' then readMinutes cs
    else none

/-- `w` digits and the mark behind them. -/
def fixedThen (w : ℕ) (mark : Char) (cs : List Char) : Option (ℕ × List Char) :=
  (fixed w cs).bind fun r => (expect mark r.2).map fun cs => (r.1, cs)

def readMoment (cs : List Char) : Option Moment := do
  let (year, cs) ← fixedThen 4 '-' cs
  let (month, cs) ← fixedThen 2 '-' cs
  let (day, cs) ← fixedThen 2 ' ' cs
  let (hour, cs) ← fixedThen 2 ':' cs
  let (minute, cs) ← fixedThen 2 ':' cs
  let (second, cs) ← fixed 2 cs
  let (microsecond, cs) ← readFraction cs
  let offset ← readOffset cs
  return { year, month, day, hour, minute, second, microsecond, offset }

def Datetime.read (s : String) : Option Datetime :=
  (readMoment s.toList).bind fun m => if h : m.Valid then some ⟨m, h⟩ else none

theorem offsetText_start (offset : ℤ) : ∃ c cs, offsetText offset = c :: cs ∧ c ≠ '.' := by
  unfold offsetText
  split
  · exact ⟨'-', _, rfl, by decide⟩
  · exact ⟨'+', _, rfl, by decide⟩

theorem readFraction_append {microsecond : ℕ} (h : microsecond < 10 ^ 6) (offset : ℤ) :
    readFraction (fractionText microsecond ++ offsetText offset) =
      some (microsecond, offsetText offset) := by
  unfold fractionText
  split
  next hzero =>
    obtain ⟨c, cs, htext, hpoint⟩ := offsetText_start offset
    unfold readFraction
    rw [List.nil_append, htext, expect_of_ne hpoint, hzero]
  next hne =>
    unfold readFraction
    rw [List.cons_append, expect_self]
    exact fixed_padded (by decide) h

theorem readMinutes_text {n : ℕ} (h : n < 1440) :
    readMinutes (padded 2 (n / 60) ++ ':' :: padded 2 (n % 60)) = some (n : ℤ) := by
  have hhours : fixed 2 (padded 2 (n / 60) ++ ':' :: padded 2 (n % 60)) =
      some (n / 60, ':' :: padded 2 (n % 60)) := fixed_padded (by decide) (by omega)
  have hminutes : fixed 2 (padded 2 (n % 60) ++ []) = some (n % 60, []) :=
    fixed_padded (by decide) (by omega)
  rw [List.append_nil] at hminutes
  have hsum : ((n / 60 : ℕ) : ℤ) * 60 + ((n % 60 : ℕ) : ℤ) = n := by omega
  unfold readMinutes
  rw [hhours]
  dsimp only [Option.bind_eq_bind, Option.bind_some]
  rw [expect_self]
  dsimp only [Option.bind_eq_bind, Option.bind_some]
  rw [hminutes]
  dsimp only [Option.bind_eq_bind, Option.bind_some]
  rw [if_pos rfl, hsum]

theorem readOffset_offsetText {offset : ℤ} (h : -1440 < offset ∧ offset < 1440) :
    readOffset (offsetText offset) = some offset := by
  have hminutes := readMinutes_text (n := offset.natAbs) (by omega)
  unfold offsetText
  split
  next hneg =>
    have habs : -(offset.natAbs : ℤ) = offset := by omega
    rw [readOffset, if_pos rfl, hminutes, Option.map_some, habs]
  next hpos =>
    have habs : (offset.natAbs : ℤ) = offset := by omega
    rw [readOffset, if_neg (by decide), if_pos rfl, hminutes, habs]

theorem fixedThen_padded {w n : ℕ} {mark : Char} {rest : List Char} (hw : 0 < w)
    (hn : n < 10 ^ w) : fixedThen w mark (padded w n ++ mark :: rest) = some (n, rest) := by
  unfold fixedThen
  rw [fixed_padded hw hn, Option.bind_some, expect_self, Option.map_some]

theorem readMoment_text {m : Moment} (h : m.Valid) : readMoment m.text = some m := by
  have hday : m.day ≤ 31 := by
    have hle := h.day.2
    unfold daysIn at hle
    split_ifs at hle <;> omega
  have hmonth := h.month.2
  have hhour := h.hour
  have hminute := h.minute
  have hsecond := h.second
  unfold readMoment Moment.text
  rw [fixedThen_padded (by decide) h.year.2]
  dsimp only [Option.bind_eq_bind, Option.bind_some]
  rw [fixedThen_padded (by decide) (by omega)]
  dsimp only [Option.bind_some]
  rw [fixedThen_padded (by decide) (by omega)]
  dsimp only [Option.bind_some]
  rw [fixedThen_padded (by decide) (by omega)]
  dsimp only [Option.bind_some]
  rw [fixedThen_padded (by decide) (by omega)]
  dsimp only [Option.bind_some]
  rw [fixed_padded (by decide) (by omega)]
  dsimp only [Option.bind_some]
  rw [readFraction_append h.microsecond]
  dsimp only [Option.bind_some]
  rw [readOffset_offsetText h.offset]
  rfl

@[simp] theorem Datetime.read_str (t : Datetime) : Datetime.read (Datetime.str t) = some t := by
  unfold Datetime.read Datetime.str
  rw [String.toList_ofList, readMoment_text t.property, Option.bind_some, dif_pos t.property]

example : Datetime.str ⟨⟨2026, 5, 1, 9, 30, 0, 1200, -330⟩, by decide⟩ =
    "2026-05-01 09:30:00.001200-05:30" := by decide +kernel

end PyScalars
