import HotelMs.Bookings
import HotelMs.DatePickers
import HotelMs.Occupancy
import HotelMs.AvailabilityCache
import HotelMs.Lib.DateOrder

/-!
# The booking calendar (`BookingCalendar.jsx`)

The page lays the days of a month out in weeks and puts into each cell the
bookings whose texts of dates have the text of the day between them. Months
are counted from 0, as `Date` counts them.
-/

namespace HotelMs

open Calendar Numerals Runs Tables

/-! ### `Date` from local fields -/

/-- The years 0 to 99 are those of the twentieth century. -/
def fullYear (year : ℤ) : ℤ := if 0 ≤ year ∧ year ≤ 99 then 1900 + year else year

/-- `new Date(year, month, day)`: months past the twelfth and days before the first carry. -/
def newLocalDate (offset year : ℤ) (month : ℕ) (day : ℤ) : JsDate :=
  localDay offset
    (Date.ordinal ⟨fullYear year + (month / 12 : ℕ), month % 12 + 1, 1⟩ + (day - 1))

/-- The number of the local day. -/
def dayNumber (offset t : ℤ) : ℤ := (t + offset) / msPerDay + epochDay

/-- Sunday is 0; `none` is `NaN`. -/
def getDay (offset : ℤ) (d : JsDate) : Option ℤ := d.map fun t => dayNumber offset t % 7

def getDate (offset : ℤ) (d : JsDate) : Option ℤ := d.map fun t => (dateOf (dayNumber offset t)).day

/-! ### The page -/

/-- A `BookingAdminResponse` as it is sent. -/
structure BookingRow where
  id : ℤ
  userId : ℤ
  roomId : ℤ
  checkIn : List Char
  checkOut : List Char
  totalPrice : ℚ
  status : BookingStatus
  guestName : Option String
  guestEmail : Option String
  deriving DecidableEq

def BookingAdminResponse.json (b : BookingAdminResponse) : BookingRow where
  id := b.id
  userId := b.userId
  roomId := b.roomId
  checkIn := isoText b.checkIn
  checkOut := isoText b.checkOut
  totalPrice := b.totalPrice
  status := b.status
  guestName := b.guestName
  guestEmail := b.guestEmail

/-- `setSelectedDay` is given days from 1 on. -/
structure CalendarPage where
  year : ℤ
  month : ℕ
  bookings : List BookingRow
  loading : Bool
  selectedDay : Option ℤ
  deriving DecidableEq

def toDateStr (year : ℤ) (month : ℕ) (day : ℤ) : List Char :=
  intText year ++ '-' :: (padded 2 (month + 1) ++ '-' :: padded 2 day.toNat)

def bookingsForDay (bookings : List BookingRow) (dateStr : List Char) : List BookingRow :=
  bookings.filter fun b =>
    if b.checkIn = [] ∨ b.checkOut = [] then false
    else decide (b.checkIn ≤ dateStr) && decide (dateStr ≤ b.checkOut)

section

variable (offset : ℤ)

/-- The first `today`. -/
def CalendarPage.opened (now : ℤ) : CalendarPage where
  year := (dateOf (dayNumber offset now)).year
  month := (dateOf (dayNumber offset now)).month - 1
  bookings := []
  loading := true
  selectedDay := none

namespace CalendarPage

def firstDayOfMonth (p : CalendarPage) : Option ℤ :=
  getDay offset (newLocalDate offset p.year p.month 1)

def daysInMonth (p : CalendarPage) : Option ℤ :=
  getDate offset (newLocalDate offset p.year (p.month + 1) 0)

/-- With `NaN` cells to fill the loop does not start. -/
def cells (p : CalendarPage) : List (Option ℤ) :=
  match p.firstDayOfMonth offset, p.daysInMonth offset with
  | some first, some days =>
    (List.range (7 * ((first + days + 6) / 7)).toNat).map fun i : ℕ =>
      let dayNum : ℤ := i - first + 1
      if dayNum < 1 ∨ days < dayNum then none else some dayNum
  | _, _ => []

def prevMonth (p : CalendarPage) : CalendarPage :=
  if p.month = 0 then { p with year := p.year - 1, month := 11, selectedDay := none }
  else { p with month := p.month - 1, selectedDay := none }

def nextMonth (p : CalendarPage) : CalendarPage :=
  if p.month = 11 then { p with year := p.year + 1, month := 0, selectedDay := none }
  else { p with month := p.month + 1, selectedDay := none }

def select (p : CalendarPage) (dayNum : ℤ) : CalendarPage :=
  { p with selectedDay := if p.selectedDay = some dayNum then none else some dayNum }

end CalendarPage

/-- What one cell shows of its day; the title of a chip is left out. -/
structure DayCell where
  dayNum : ℤ
  isToday : Bool
  isSelected : Bool
  dayBookings : List BookingRow
  deriving DecidableEq

def DayCell.chips (c : DayCell) : List BookingRow := c.dayBookings.take 3

/-- `+… more` -/
def DayCell.more (c : DayCell) : Option ℕ :=
  if 3 < c.dayBookings.length then some (c.dayBookings.length - 3) else none

/-- The chips of a room's live bookings, also those that do not fit. -/
def DayCell.live (c : DayCell) (roomId : ℤ) : List BookingRow :=
  c.dayBookings.filter fun r => decide (r.roomId = roomId ∧ r.status ≠ .cancelled)

/-- `today.toISOString().slice(0, 10)` -/
def todayStr (now : ℤ) : List Char := (isoText (now / msPerDay + epochDay)).take 10

namespace CalendarPage

def dayCell (now : ℤ) (p : CalendarPage) (dayNum : ℤ) : DayCell :=
  let dateStr := toDateStr p.year p.month dayNum
  { dayNum, isToday := dateStr = todayStr now, isSelected := p.selectedDay = some dayNum
    dayBookings := bookingsForDay p.bookings dateStr }

/-- An empty cell is `none`. -/
def grid (now : ℤ) (p : CalendarPage) : List (Option DayCell) :=
  (p.cells offset).map (Option.map (p.dayCell now))

/-- The side panel. -/
def selectedBookings (p : CalendarPage) : List BookingRow :=
  match p.selectedDay with
  | none => []
  | some day => bookingsForDay p.bookings (toDateStr p.year p.month day)

end CalendarPage

inductive CalendarEvent
  | answered
  | prevMonth
  | nextMonth
  | click (cell : ℕ)
  deriving DecidableEq

/-- While the bookings load there is nothing to click. -/
def calendarStep (reply : Except Error (List BookingAdminResponse)) (p : CalendarPage) :
    CalendarEvent → CalendarPage
  | .answered =>
    match reply with
    | .ok rows => { p with bookings := rows.map BookingAdminResponse.json, loading := false }
    | .error _ => { p with bookings := [], loading := false }
  | .prevMonth => if p.loading then p else p.prevMonth
  | .nextMonth => if p.loading then p else p.nextMonth
  | .click i =>
    if p.loading then p
    else
      match (p.cells offset)[i]? with
      | some (some dayNum) => p.select dayNum
      | _ => p

end

/-! ### The shown month -/

theorem dayNumber_localDay {offset n : ℤ} (h : Representable offset n) :
    (localDay offset n).map (dayNumber offset) = some n := by
  have hday : ((n - epochDay) * msPerDay - offset + offset) / msPerDay = n - epochDay := by
    rw [Int.sub_add_cancel]
    exact Int.mul_ediv_cancel _ (by decide)
  rw [localDay_eq h, Option.map_some, dayNumber, hday, Int.sub_add_cancel]

/-- Day 0 of the next month is the last day of this one. -/
theorem ordinal_day_zero (y : ℤ) {m : ℕ} (hm : m < 12) :
    Date.ordinal ⟨y + ((m + 1) / 12 : ℕ), (m + 1) % 12 + 1, 1⟩ + (0 - 1) =
      Date.ordinal ⟨y, m + 1, monthLength y (m + 1)⟩ := by
  unfold Date.ordinal
  dsimp only
  by_cases hlast : m = 11
  · subst hlast
    have hyear := yearStart_succ y
    have hend := monthStart_end y
    have hfirst : monthStart (y + 1) 1 = 0 := rfl
    show yearStart (y + 1) + monthStart (y + 1) 1 + 1 + (0 - 1) =
      yearStart y + monthStart y 12 + monthLength y 12
    omega
  · have hdiv : (m + 1) / 12 = 0 := Nat.div_eq_of_lt (by omega)
    have hmod : (m + 1) % 12 = m + 1 := Nat.mod_eq_of_lt (by omega)
    have hnext := monthStart_succ y (m := m + 1) (by omega)
    rw [hdiv, hmod, Nat.cast_zero, Int.add_zero, hnext]
    omega

section

variable {offset : ℤ} {p : CalendarPage}

namespace CalendarPage

/-- The number of a day of the shown month. -/
def dayOf (p : CalendarPage) (day : ℤ) : ℤ := Date.ordinal ⟨p.year, p.month + 1, day⟩

def monthDays (p : CalendarPage) : ℤ := monthLength p.year (p.month + 1)

theorem dayOf_eq (day : ℤ) : p.dayOf day = p.dayOf 1 + (day - 1) := by
  unfold dayOf Date.ordinal
  dsimp only
  omega

/-- Years written with four digits. -/
def FourDigits (p : CalendarPage) : Prop := 1000 ≤ p.year ∧ p.year ≤ 9999

instance : Decidable p.FourDigits := inferInstanceAs (Decidable (_ ∧ _))

theorem valid_of_day (hmonth : p.month < 12) {day : ℤ} (hday : 1 ≤ day ∧ day ≤ p.monthDays) :
    Date.Valid ⟨p.year, p.month + 1, day⟩ := ⟨⟨Nat.le_add_left _ _, hmonth⟩, hday⟩

theorem monthDays_bounds (p : CalendarPage) : 28 ≤ p.monthDays ∧ p.monthDays ≤ 31 := by
  refine ⟨monthLength_pos _ _, ?_⟩
  unfold monthDays monthLength
  split_ifs <;> decide

theorem dayOf_range (hmonth : p.month < 12) (hyear : p.FourDigits) {day : ℤ}
    (hday : 1 ≤ day ∧ day ≤ p.monthDays) : 364877 < p.dayOf day ∧ p.dayOf day ≤ dateMax := by
  have hin := ordinal_in_year (valid_of_day hmonth hday)
  have hlow : yearStart 1000 = 364877 := by decide
  have hhigh : yearStart 10000 = dateMax := by decide
  have hstart := yearStart_mono hyear.1
  have hend := yearStart_mono (show p.year + 1 ≤ 10000 from Int.add_le_add_right hyear.2 1)
  dsimp only at hin
  unfold dayOf
  omega

theorem isDate_dayOf (hmonth : p.month < 12) (hyear : p.FourDigits) {day : ℤ}
    (hday : 1 ≤ day ∧ day ≤ p.monthDays) : IsDate (p.dayOf day) := by
  have hrange := dayOf_range hmonth hyear hday
  have hmin : dateMin = 1 := rfl
  exact ⟨by omega, hrange.2⟩

theorem representable_dayOf (ho : OffsetRange offset) (hmonth : p.month < 12)
    (hyear : p.FourDigits) {day : ℤ} (hday : 1 ≤ day ∧ day ≤ p.monthDays) :
    Representable offset (p.dayOf day) := by
  have hrange := dayOf_range hmonth hyear hday
  obtain ⟨hlow, hhigh⟩ := ho
  unfold dateMax at hrange
  unfold Representable msPerDay epochDay
  omega

theorem fullYear_eq (hyear : p.FourDigits) : fullYear p.year = p.year := by
  obtain ⟨hlow, _⟩ := hyear
  exact if_neg (by omega)

theorem firstDayOfMonth_eq (ho : OffsetRange offset) (hmonth : p.month < 12)
    (hyear : p.FourDigits) : p.firstDayOfMonth offset = some (p.dayOf 1 % 7) := by
  have hbounds := p.monthDays_bounds
  have hfirst : newLocalDate offset p.year p.month 1 = localDay offset (p.dayOf 1) := by
    unfold newLocalDate dayOf
    rw [fullYear_eq hyear, Nat.div_eq_of_lt hmonth, Nat.mod_eq_of_lt hmonth, Nat.cast_zero,
      Int.add_zero, Int.sub_self, Int.add_zero]
  have hin : 1 ≤ (1 : ℤ) ∧ 1 ≤ p.monthDays := ⟨le_rfl, by omega⟩
  have hday := dayNumber_localDay (representable_dayOf ho hmonth hyear hin)
  unfold firstDayOfMonth getDay
  rw [hfirst]
  obtain ⟨t, ht, hn⟩ := Option.map_eq_some_iff.mp hday
  rw [ht, Option.map_some, hn]

theorem daysInMonth_eq (ho : OffsetRange offset) (hmonth : p.month < 12)
    (hyear : p.FourDigits) : p.daysInMonth offset = some p.monthDays := by
  have hbounds := p.monthDays_bounds
  have hin : 1 ≤ p.monthDays ∧ p.monthDays ≤ p.monthDays := ⟨by omega, le_rfl⟩
  have hlast : newLocalDate offset p.year (p.month + 1) 0 =
      localDay offset (p.dayOf p.monthDays) := by
    unfold newLocalDate
    rw [fullYear_eq hyear, ordinal_day_zero p.year hmonth]
    rfl
  have hday := dayNumber_localDay (representable_dayOf ho hmonth hyear hin)
  unfold daysInMonth getDate
  rw [hlast]
  obtain ⟨t, ht, hn⟩ := Option.map_eq_some_iff.mp hday
  rw [ht, Option.map_some, hn, dayOf, dateOf_ordinal (valid_of_day hmonth hin)]

/-! ### The cells -/

/-- What the weeks of a month are: each has a day, and each day of the month
has one cell, in the column of its weekday. -/
structure LaidOut (offset : ℤ) (p : CalendarPage) : Prop where
  weeks : 7 ∣ (p.cells offset).length
  busy : ∀ w, 7 * w < (p.cells offset).length →
    ∃ column < 7, ∃ day : ℤ, (p.cells offset)[7 * w + column]? = some (some day)
  once : ∀ day, 1 ≤ day → day ≤ p.monthDays → ∃! i : ℕ, (p.cells offset)[i]? = some (some day)
  column : ∀ (i : ℕ) day, (p.cells offset)[i]? = some (some day) →
    (1 ≤ day ∧ day ≤ p.monthDays) ∧ (i : ℤ) % 7 = p.dayOf day % 7

theorem cells_eq (ho : OffsetRange offset) (hmonth : p.month < 12) (hyear : p.FourDigits) :
    p.cells offset = (List.range (7 * ((p.dayOf 1 % 7 + p.monthDays + 6) / 7)).toNat).map
      fun i : ℕ =>
        if (i : ℤ) - p.dayOf 1 % 7 + 1 < 1 ∨ p.monthDays < i - p.dayOf 1 % 7 + 1 then none
        else some (i - p.dayOf 1 % 7 + 1) := by
  have hfirst := firstDayOfMonth_eq ho hmonth hyear
  have hdays := daysInMonth_eq ho hmonth hyear
  unfold cells
  rw [hfirst, hdays]

theorem getElem_cells (ho : OffsetRange offset) (hmonth : p.month < 12) (hyear : p.FourDigits)
    {i : ℕ} {day : ℤ} : (p.cells offset)[i]? = some (some day) ↔
      (1 ≤ day ∧ day ≤ p.monthDays) ∧ (i : ℤ) = p.dayOf 1 % 7 + day - 1 := by
  have hpos := Int.emod_nonneg (p.dayOf 1) (show (7 : ℤ) ≠ 0 by decide)
  rw [cells_eq ho hmonth hyear, List.getElem?_map]
  constructor
  · intro h
    obtain ⟨j, hj, hcell⟩ := Option.map_eq_some_iff.mp h
    obtain ⟨hlt, hij⟩ := List.getElem?_eq_some_iff.mp hj
    rw [List.getElem_range] at hij
    subst hij
    split at hcell
    next => cases hcell
    next hin =>
      have hday := Option.some_inj.mp hcell
      omega
  · rintro ⟨hday, hi⟩
    have hlt : i < (7 * ((p.dayOf 1 % 7 + p.monthDays + 6) / 7)).toNat := by omega
    rw [List.getElem?_range hlt, Option.map_some, Option.some_inj, if_neg (by omega),
      Option.some_inj]
    omega

theorem laidOut (ho : OffsetRange offset) (hmonth : p.month < 12) (hyear : p.FourDigits) :
    p.LaidOut offset := by
  have hbounds := p.monthDays_bounds
  have hpos := Int.emod_nonneg (p.dayOf 1) (show (7 : ℤ) ≠ 0 by decide)
  have hseven := Int.emod_lt_of_pos (p.dayOf 1) (show (0 : ℤ) < 7 by decide)
  have hlength : (p.cells offset).length =
      (7 * ((p.dayOf 1 % 7 + p.monthDays + 6) / 7)).toNat := by
    rw [cells_eq ho hmonth hyear, List.length_map, List.length_range]
  refine ⟨?_, ?_, ?_, ?_⟩
  · rw [hlength]
    have hcells : 0 ≤ (p.dayOf 1 % 7 + p.monthDays + 6) / 7 := by omega
    obtain ⟨weeks, hweeks⟩ := Int.eq_ofNat_of_zero_le hcells
    exact ⟨weeks, by omega⟩
  · intro w hw
    rw [hlength] at hw
    -- the month starts in the first week, and every later week starts in the month
    by_cases hfirst : w = 0
    · refine ⟨(p.dayOf 1 % 7).toNat, by omega, 1, ?_⟩
      exact (getElem_cells ho hmonth hyear).mpr ⟨by omega, by omega⟩
    · refine ⟨0, by decide, 7 * w - p.dayOf 1 % 7 + 1, ?_⟩
      exact (getElem_cells ho hmonth hyear).mpr ⟨by omega, by omega⟩
  · intro day hlow hhigh
    refine ⟨(p.dayOf 1 % 7 + day - 1).toNat,
      (getElem_cells ho hmonth hyear).mpr ⟨⟨hlow, hhigh⟩, by omega⟩, ?_⟩
    intro i hi
    have hindex := ((getElem_cells ho hmonth hyear).mp hi).2
    omega
  · intro i day hi
    obtain ⟨hday, hindex⟩ := (getElem_cells ho hmonth hyear).mp hi
    refine ⟨hday, ?_⟩
    rw [hindex, dayOf_eq day]
    omega

/-! ### What a cell shows -/

theorem toDateStr_eq (hmonth : p.month < 12) (hyear : p.FourDigits) {day : ℤ}
    (hday : 1 ≤ day ∧ day ≤ p.monthDays) :
    toDateStr p.year p.month day = isoText (p.dayOf day) := by
  obtain ⟨hlow, hhigh⟩ := hyear
  have hneg : ¬p.year < 0 := by omega
  have hnat : p.year.natAbs = p.year.toNat := by omega
  have htext : intText p.year = yearText p.year := by
    rw [yearText_four ⟨by omega, by omega⟩, padded_four (by omega) (by omega), intText,
      if_neg hneg, hnat]
  unfold isoText dayOf
  rw [dateOf_ordinal (valid_of_day hmonth hday)]
  unfold toDateStr Date.text
  rw [htext]

end CalendarPage

/-- The stays with the day `n`, the day of leaving included. -/
def staysOn (rows : List BookingAdminResponse) (n : ℤ) : List BookingAdminResponse :=
  rows.filter fun b => b.checkIn ≤ n ∧ n ≤ b.checkOut

theorem bookingsForDay_eq {rows : List BookingAdminResponse} {n : ℤ} (hn : IsDate n)
    (hdates : ∀ b ∈ rows, IsDate b.checkIn ∧ IsDate b.checkOut) :
    bookingsForDay (rows.map BookingAdminResponse.json) (isoText n) =
      (staysOn rows n).map BookingAdminResponse.json := by
  unfold bookingsForDay staysOn
  rw [List.filter_map]
  refine congrArg _ (List.filter_congr fun b hb => ?_)
  obtain ⟨hin, hout⟩ := hdates b hb
  have hblank : ¬(isoText b.checkIn = [] ∨ isoText b.checkOut = []) := by
    rintro (h | h)
    · exact isoText_ne_nil _ h
    · exact isoText_ne_nil _ h
  show (if isoText b.checkIn = [] ∨ isoText b.checkOut = [] then false
    else decide (isoText b.checkIn ≤ isoText n) && decide (isoText n ≤ isoText b.checkOut)) = _
  rw [if_neg hblank, Bool.decide_and]
  simp only [isoText_le_iff hin hn, isoText_le_iff hn hout]

namespace CalendarPage

/-- Each cell shows the stays of its day, both ends included; the marked cell is
the day in UTC; the panel shows what the selected cell does. -/
structure Shows (offset now : ℤ) (rows : List BookingAdminResponse) (p : CalendarPage) : Prop where
  cell : ∀ c, some c ∈ p.grid offset now →
    c.dayBookings = (staysOn rows (p.dayOf c.dayNum)).map BookingAdminResponse.json
  today : ∀ c, some c ∈ p.grid offset now → IsDate (now / msPerDay + epochDay) →
    (c.isToday = true ↔ p.dayOf c.dayNum = now / msPerDay + epochDay)
  panel : ∀ day ∈ p.selectedDay, ∃ c, some c ∈ p.grid offset now ∧ c.isSelected = true ∧
    c.dayNum = day ∧ c.dayBookings = p.selectedBookings

theorem mem_grid {now : ℤ} {c : DayCell} (h : some c ∈ p.grid offset now) :
    some c.dayNum ∈ p.cells offset ∧ c = p.dayCell now c.dayNum := by
  obtain ⟨cell, hcell, heq⟩ := List.mem_map.mp h
  obtain ⟨day, rfl, rfl⟩ := Option.map_eq_some_iff.mp heq
  exact ⟨hcell, rfl⟩

theorem day_of_mem_cells (ho : OffsetRange offset) (hmonth : p.month < 12)
    (hyear : p.FourDigits) {day : ℤ} (h : some day ∈ p.cells offset) :
    1 ≤ day ∧ day ≤ p.monthDays := by
  obtain ⟨i, hi⟩ := List.mem_iff_getElem?.mp h
  exact ((getElem_cells ho hmonth hyear).mp hi).1

theorem todayStr_eq {now : ℤ} (h : IsDate (now / msPerDay + epochDay)) :
    todayStr now = isoText (now / msPerDay + epochDay) := by
  have hyear := year_range h.1 h.2
  have hvalid := dateOf_valid (now / msPerDay + epochDay)
  have hmonth := hvalid.month
  have hday := hvalid.day
  have hlong : monthLength (dateOf (now / msPerDay + epochDay)).year
      (dateOf (now / msPerDay + epochDay)).month ≤ 31 := by
    unfold monthLength
    split_ifs <;> decide
  refine List.take_of_length_le ?_
  unfold isoText Date.text
  rw [yearText_four ⟨by omega, hyear.2⟩, List.length_append, List.length_cons,
    List.length_append, List.length_cons, length_padded (by decide) (by omega),
    length_padded (by decide) (by omega), length_padded (by decide) (by omega)]

theorem isoText_eq_iff {n k : ℤ} (hn : IsDate n) (hk : IsDate k) :
    isoText n = isoText k ↔ n = k := by
  obtain ⟨hlow, hhigh⟩ := hn
  obtain ⟨hlow', hhigh'⟩ := hk
  unfold dateMin at hlow hlow'
  unfold dateMax at hhigh hhigh'
  exact ⟨isoText_injective (by omega) (by omega), congrArg isoText⟩

theorem shows_of_loaded (ho : OffsetRange offset) (now : ℤ) {rows : List BookingAdminResponse}
    (hdates : ∀ b ∈ rows, IsDate b.checkIn ∧ IsDate b.checkOut) (hmonth : p.month < 12)
    (hyear : p.FourDigits) (hselected : ∀ day ∈ p.selectedDay, some day ∈ p.cells offset)
    (hrows : p.bookings = rows.map BookingAdminResponse.json) : p.Shows offset now rows := by
  refine ⟨?_, ?_, ?_⟩
  · intro c hc
    obtain ⟨hmem, heq⟩ := mem_grid hc
    have hday := day_of_mem_cells ho hmonth hyear hmem
    have hbookings : c.dayBookings = bookingsForDay p.bookings
        (toDateStr p.year p.month c.dayNum) := congrArg DayCell.dayBookings heq
    rw [hbookings, toDateStr_eq hmonth hyear hday, hrows,
      bookingsForDay_eq (isDate_dayOf hmonth hyear hday) hdates]
  · intro c hc hutc
    obtain ⟨hmem, heq⟩ := mem_grid hc
    have hday := day_of_mem_cells ho hmonth hyear hmem
    have htoday : c.isToday = decide (toDateStr p.year p.month c.dayNum = todayStr now) :=
      congrArg DayCell.isToday heq
    rw [htoday, toDateStr_eq hmonth hyear hday, todayStr_eq hutc, decide_eq_true_iff,
      isoText_eq_iff (isDate_dayOf hmonth hyear hday) hutc]
  · intro day hday
    have hselect : p.selectedDay = some day := hday
    refine ⟨p.dayCell now day, List.mem_map.mpr ⟨some day, hselected day hday, rfl⟩, ?_, rfl, ?_⟩
    · exact decide_eq_true hselect
    · unfold selectedBookings
      rw [hselect]
      rfl

/-! ### Runs of clicks -/

/-- What every click keeps. -/
structure Kept (offset : ℤ) (rows : List BookingAdminResponse) (p : CalendarPage) : Prop where
  month : p.month < 12
  selected : ∀ day ∈ p.selectedDay, some day ∈ p.cells offset
  loaded : p.loading = false → p.bookings = rows.map BookingAdminResponse.json

theorem kept_opened (now : ℤ) (rows : List BookingAdminResponse) :
    Kept offset rows (CalendarPage.opened offset now) := by
  have hmonth := (dateOf_valid (dayNumber offset now)).month
  refine ⟨?_, fun _ h => absurd h (Option.not_mem_none _),
    fun h => absurd h.symm Bool.false_ne_true⟩
  show (dateOf (dayNumber offset now)).month - 1 < 12
  omega

theorem kept_turn {rows : List BookingAdminResponse} (h : Kept offset rows p) (year : ℤ) {month : ℕ}
    (hmonth : month < 12) :
    Kept offset rows { p with year := year, month := month, selectedDay := none } :=
  ⟨hmonth, fun _ h => absurd h (Option.not_mem_none _), h.loaded⟩

theorem kept_select {rows : List BookingAdminResponse} (h : Kept offset rows p) {day : ℤ}
    (hday : some day ∈ p.cells offset) : Kept offset rows (p.select day) := by
  refine ⟨h.month, ?_, h.loaded⟩
  intro d hd
  unfold select at hd
  dsimp only at hd
  split at hd
  next => exact absurd hd (Option.not_mem_none _)
  next =>
    obtain rfl := Option.mem_some_iff.mp hd
    exact hday

theorem kept_prevMonth {rows : List BookingAdminResponse} (h : Kept offset rows p) :
    Kept offset rows p.prevMonth := by
  have hmonth := h.month
  have hless : p.month - 1 < 12 := by omega
  unfold CalendarPage.prevMonth
  split
  next => exact kept_turn h _ (by decide)
  next => exact kept_turn h _ hless

theorem kept_nextMonth {rows : List BookingAdminResponse} (h : Kept offset rows p) :
    Kept offset rows p.nextMonth := by
  have hmonth := h.month
  unfold CalendarPage.nextMonth
  split
  next => exact kept_turn h _ (by decide)
  next hlast =>
    have hmore : p.month + 1 < 12 := by omega
    exact kept_turn h _ hmore

theorem kept_step {rows : List BookingAdminResponse} (e : CalendarEvent)
    (h : Kept offset rows p) : Kept offset rows (calendarStep offset (.ok rows) p e) := by
  cases e with
  | answered => exact ⟨h.month, h.selected, fun _ => rfl⟩
  | prevMonth =>
    show Kept offset rows (if p.loading then p else p.prevMonth)
    split
    next => exact h
    next => exact kept_prevMonth h
  | nextMonth =>
    show Kept offset rows (if p.loading then p else p.nextMonth)
    split
    next => exact h
    next => exact kept_nextMonth h
  | click i =>
    rw [calendarStep]
    split
    next => exact h
    next =>
      split
      next day hcell => exact kept_select h (List.mem_iff_getElem?.mpr ⟨i, hcell⟩)
      next => exact h

theorem kept_run (now : ℤ) (rows : List BookingAdminResponse) (es : List CalendarEvent) :
    Kept offset rows (run (calendarStep offset (.ok rows)) (CalendarPage.opened offset now) es) :=
  run_invariant (P := fun _ _ => True) (fun _ e h _ => kept_step e h) (kept_opened now rows)
    (along_of_forall fun _ _ _ => trivial)

end CalendarPage

/-! ### The rows of the reply -/

variable {s : Store} {token : Bearer} {rows : List BookingAdminResponse}

/-- The reply is some bookings of the store, each once. -/
theorem rows_of_listAllBookings {filter : Option String}
    (h : listAllBookings s token filter = .ok rows) :
    ∃ bookings : List Booking, rows = bookings.map (Booking.adminResponse s) ∧
      (∀ b ∈ bookings, b ∈ s.bookings.rows) ∧ (bookings.map Booking.id).Nodup := by
  unfold listAllBookings at h
  simp only [bind, Except.bind, pure, Except.pure] at h
  split at h
  next => cases h
  next user huser =>
    split at h
    next => cases h
    next =>
      cases h
      refine ⟨_, rfl, ?_, ?_⟩
      · intro b hb
        exact List.mem_of_mem_filter ((List.perm_insertionSort _ _).mem_iff.mp hb)
      · have hperm := (List.perm_insertionSort (fun a b : Booking => b.createdAt ≤ a.createdAt)
          (s.bookings.select fun b => (getOptionalHotel user).all (fun h => b.hotelId = h) &&
            b.hasStatus filter)).map Booking.id
        refine hperm.nodup_iff.mpr ?_
        exact s.bookings.distinct.sublist (List.filter_sublist.map _)

theorem dates_of_listAllBookings {filter : Option String}
    (h : listAllBookings s token filter = .ok rows)
    (hdates : ∀ b ∈ s.bookings.rows, IsDate b.checkIn ∧ IsDate b.checkOut) :
    ∀ r ∈ rows, IsDate r.checkIn ∧ IsDate r.checkOut := by
  obtain ⟨bookings, rfl, hmem, _⟩ := rows_of_listAllBookings h
  intro r hr
  obtain ⟨b, hb, rfl⟩ := List.mem_map.mp hr
  exact hdates b (hmem b hb)

theorem length_le_one_of_nodup {α : Type*} {l : List α} (h : l.Nodup)
    (hsame : ∀ a ∈ l, ∀ b ∈ l, a = b) : l.length ≤ 1 := by
  match l with
  | [] => exact Nat.zero_le _
  | [_] => exact le_rfl
  | a :: b :: l =>
    have heq := hsame a List.mem_cons_self b (List.mem_cons_of_mem _ List.mem_cons_self)
    exact absurd (heq ▸ List.mem_cons_self) (List.nodup_cons.mp h).1

/-- Of the rows of a reply that all hold one room on one night there is one at most. -/
theorem one_of_same_night {filter : Option String} (h : listAllBookings s token filter = .ok rows)
    (hno : NoDoubleBooking s.bookings) (roomId night : ℤ) {q : BookingAdminResponse → Bool}
    (hq : ∀ r ∈ rows, q r = true → (r.roomId = roomId ∧ r.status ≠ .cancelled) ∧
      r.checkIn ≤ night ∧ night < r.checkOut) : (rows.filter q).length ≤ 1 := by
  obtain ⟨bookings, rfl, hmem, hnodup⟩ := rows_of_listAllBookings h
  rw [List.filter_map, List.length_map]
  refine length_le_one_of_nodup ((List.Nodup.of_map _ hnodup).filter _) ?_
  intro b₁ h₁ b₂ h₂
  obtain ⟨hb₁, hq₁⟩ := List.mem_filter.mp h₁
  obtain ⟨hb₂, hq₂⟩ := List.mem_filter.mp h₂
  obtain ⟨⟨hroom₁, hlive₁⟩, hstay₁⟩ := hq _ (List.mem_map_of_mem hb₁) hq₁
  obtain ⟨⟨hroom₂, hlive₂⟩, hstay₂⟩ := hq _ (List.mem_map_of_mem hb₂) hq₂
  by_contra hne
  have hid : b₁.id ≠ b₂.id := fun hid =>
    hne (s.bookings.eq_of_key (hmem b₁ hb₁) (hmem b₂ hb₂) hid)
  have hdis := hno b₁ (hmem b₁ hb₁) b₂ (hmem b₂ hb₂) hid (hroom₁.trans hroom₂.symm) hlive₁ hlive₂
  exact Set.disjoint_left.mp hdis hstay₁ hstay₂

theorem mem_rows_stay {filter : Option String} (h : listAllBookings s token filter = .ok rows)
    (hstays : ∀ b ∈ s.bookings.rows, b.checkIn < b.checkOut) :
    ∀ r ∈ rows, r.checkIn < r.checkOut := by
  obtain ⟨bookings, rfl, hmem, _⟩ := rows_of_listAllBookings h
  intro r hr
  obtain ⟨b, hb, rfl⟩ := List.mem_map.mp hr
  exact hstays b (hmem b hb)

/-- Of a room's live bookings in a cell one stays the night, and one leaves. -/
theorem live_of_shown {filter : Option String} (h : listAllBookings s token filter = .ok rows)
    (hno : NoDoubleBooking s.bookings) (hstays : ∀ b ∈ s.bookings.rows, b.checkIn < b.checkOut)
    (hdates : ∀ b ∈ s.bookings.rows, IsDate b.checkIn ∧ IsDate b.checkOut) {c : DayCell} {n : ℤ}
    (hn : IsDate n) (hshown : c.dayBookings = (staysOn rows n).map BookingAdminResponse.json)
    (roomId : ℤ) :
    ((c.live roomId).filter fun r => decide (r.checkOut = isoText n)).length ≤ 1 ∧
      ((c.live roomId).filter fun r => !decide (r.checkOut = isoText n)).length ≤ 1 := by
  have hrows := dates_of_listAllBookings h hdates
  have hlast : ∀ r ∈ rows, (r.json.checkOut = isoText n ↔ r.checkOut = n) := fun r hr =>
    CalendarPage.isoText_eq_iff (hrows r hr).2 hn
  have hbefore := mem_rows_stay h hstays
  unfold DayCell.live staysOn at *
  rw [hshown]
  simp only [List.filter_map, List.filter_filter, List.length_map]
  constructor
  · -- who leaves on the day was there the night before
    refine one_of_same_night h hno roomId (n - 1) fun r hr hq => ?_
    simp only [Bool.and_eq_true, decide_eq_true_eq, Function.comp_apply] at hq
    obtain ⟨hout, hlive, hin, hend⟩ := hq
    rw [hlast r hr] at hout
    have hless := hbefore r hr
    exact ⟨hlive, by omega⟩
  · refine one_of_same_night h hno roomId n fun r hr hq => ?_
    simp only [Bool.and_eq_true, decide_eq_true_eq, Function.comp_apply, Bool.not_eq_true',
      decide_eq_false_iff_not] at hq
    obtain ⟨hout, hlive, hin, hend⟩ := hq
    rw [hlast r hr] at hout
    exact ⟨hlive, by omega⟩

end

/-! ### Every run of the page -/

/-- After any clicks, in years of four digits. -/
theorem calendar_shows_each_stay {offset : ℤ} (ho : OffsetRange offset) {s : Store}
    {token : Bearer} {rows : List BookingAdminResponse}
    (hdates : ∀ b ∈ s.bookings.rows, IsDate b.checkIn ∧ IsDate b.checkOut)
    (hreply : listAllBookings s token none = .ok rows) (now : ℤ) (es : List CalendarEvent) :
    let p := run (calendarStep offset (.ok rows)) (CalendarPage.opened offset now) es
    p.month < 12 ∧ (∀ day ∈ p.selectedDay, some day ∈ p.cells offset) ∧
      (p.FourDigits → p.LaidOut offset ∧
        ∀ later, p.loading = false → p.Shows offset later rows) := by
  intro p
  have hkept : CalendarPage.Kept offset rows p := CalendarPage.kept_run now rows es
  have hrows := dates_of_listAllBookings hreply hdates
  refine ⟨hkept.month, hkept.selected, fun hyear => ⟨?_, fun later hloaded => ?_⟩⟩
  · exact CalendarPage.laidOut ho hkept.month hyear
  · exact CalendarPage.shows_of_loaded ho later hrows hkept.month hyear hkept.selected
      (hkept.loaded hloaded)

/-- Two guests one after the other in one room, in June 2024. -/
def juneStore : Store :=
  [books 1 739047 739049 (by decide), books 2 739049 739051 (by decide)].foldl (act sampleExt)
    sampleStore

/-- Asked for by the hotel's admin. -/
def juneRows : List BookingAdminResponse :=
  match listAllBookings juneStore (some 3) none with
  | .ok rows => rows
  | .error _ => []

/-- In a zone five hours ahead, the page is loaded, turned to July and back, and the
day between the two stays is clicked. -/
theorem calendar_shows_each_stay_june :
    let p := run (calendarStep 18000000 (.ok juneRows))
      (CalendarPage.opened 18000000 1717545600000) [.answered, .nextMonth, .prevMonth, .click 17]
    p.selectedDay = some 12 ∧ p.selectedBookings.length = 2 ∧ p.LaidOut 18000000 ∧
      p.Shows 18000000 1717545600000 juneRows := by
  have hzone : OffsetRange 18000000 := by decide
  have hdates : ∀ b ∈ juneStore.bookings.rows, IsDate b.checkIn ∧ IsDate b.checkOut := by
    decide +kernel
  have hreply : listAllBookings juneStore (some 3) none = .ok juneRows := by decide +kernel
  have hpage := calendar_shows_each_stay hzone hdates hreply 1717545600000
    [.answered, .nextMonth, .prevMonth, .click 17]
  obtain ⟨_, _, hshown⟩ := hpage
  obtain ⟨hlaid, hloaded⟩ := hshown (by decide +kernel)
  exact ⟨by decide +kernel, by decide +kernel, hlaid, hloaded _ (by decide +kernel)⟩

/-- A cell has two live bookings of a room at most, of which one leaves that day. -/
theorem cell_has_one_stay_of_a_room {offset : ℤ} (ho : OffsetRange offset) {s : Store}
    {token : Bearer} {rows : List BookingAdminResponse}
    (hdates : ∀ b ∈ s.bookings.rows, IsDate b.checkIn ∧ IsDate b.checkOut)
    (hstays : ∀ b ∈ s.bookings.rows, b.checkIn < b.checkOut) (hno : NoDoubleBooking s.bookings)
    (hreply : listAllBookings s token none = .ok rows) (now later : ℤ) (es : List CalendarEvent) :
    let p := run (calendarStep offset (.ok rows)) (CalendarPage.opened offset now) es
    p.FourDigits → p.loading = false → ∀ c, some c ∈ p.grid offset later → ∀ roomId,
      (c.live roomId).length ≤ 2 ∧ ((c.live roomId).filter fun r =>
        !decide (r.checkOut = toDateStr p.year p.month c.dayNum)).length ≤ 1 := by
  intro p hyear hloaded c hc roomId
  have hkept : CalendarPage.Kept offset rows p := CalendarPage.kept_run now rows es
  have hrows := dates_of_listAllBookings hreply hdates
  have hshown := (CalendarPage.shows_of_loaded ho later hrows hkept.month hyear hkept.selected
    (hkept.loaded hloaded)).cell c hc
  have hday := CalendarPage.day_of_mem_cells ho hkept.month hyear (CalendarPage.mem_grid hc).1
  have hdate := CalendarPage.isDate_dayOf hkept.month hyear hday
  have htext := CalendarPage.toDateStr_eq hkept.month hyear hday
  obtain ⟨hleaves, hstay⟩ := live_of_shown hreply hno hstays hdates hdate hshown roomId
  have hsplit := List.length_eq_length_filter_add (l := c.live roomId)
    fun r => decide (r.checkOut = isoText (p.dayOf c.dayNum))
  rw [htext]
  omega

theorem cell_has_one_stay_of_a_room_june :
    let p := run (calendarStep 18000000 (.ok juneRows))
      (CalendarPage.opened 18000000 1717545600000) [.answered, .click 17]
    ∀ c, some c ∈ p.grid 18000000 1717545600000 → (c.live 1).length ≤ 2 := by
  have hzone : OffsetRange 18000000 := by decide
  have hdates : ∀ b ∈ juneStore.bookings.rows, IsDate b.checkIn ∧ IsDate b.checkOut := by
    decide +kernel
  have hstays : ∀ b ∈ juneStore.bookings.rows, b.checkIn < b.checkOut := by decide +kernel
  have hno : NoDoubleBooking juneStore.bookings := by decide +kernel
  have hreply : listAllBookings juneStore (some 3) none = .ok juneRows := by decide +kernel
  intro p c hc
  exact (cell_has_one_stay_of_a_room hzone hdates hstays hno hreply 1717545600000 1717545600000
    [.answered, .click 17] (by decide +kernel) (by decide +kernel) c hc 1).1

end HotelMs
