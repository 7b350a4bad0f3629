import HotelMs.RevenueTotals
import HotelMs.Lib.Numerals

/-!
# Exports (`export_report` in `api/v1/admin/reports.py`)

The exports query what the reports query and then write a line for each of
`range(days)`: the days up to yesterday.
-/

namespace HotelMs

open Tables Queries Numerals

/-- `str` of a date and `repr` of a float, which hold none of the characters that
mean something in a CSV text. -/
structure ExportFormat (F : PyFloat) where
  dateText : ℤ → List Char
  floatText : F.Carrier → List Char
  float_plain : ∀ x, ∀ c ∈ floatText x, c ≠ ',' ∧ c ≠ '"' ∧ c ≠ '\n' ∧ c ≠ '\r'

inductive ExportRows (F : PyFloat)
  | occupancy (rows : List DayCount)
  | revenue (rows : List (DayRevenue F))
  | guests (rows : List (TopGuest F))
  | other

section

variable (F : PyFloat) (s : Store) (hotelId : Option ℤ)

/-- `daily_map.get(str(day), 0)` for each day of the loop. -/
def exportOccupancy (days : ℕ) (start finish : ℤ) : List DayCount :=
  (List.range days).map fun i : ℕ =>
    ⟨start + i, countIn Booking.checkIn (arrivals s hotelId start finish) (start + i)⟩

/-- `daily_map_rev.get(str(day), 0.0)` for each day of the loop. -/
def exportRevenue (dateOf : ℤ → ℤ) (days : ℕ) (start : ℤ) (rows : Multiset (Payment × Booking)) :
    List (DayRevenue F) :=
  (List.range days).map fun i : ℕ =>
    ⟨start + i, match groupRow (fun x => dateOf x.1.createdAt) paidTotal rows (start + i) with
      | some revenue => F.ofRat revenue
      | none => F.ofRat 0⟩

def exportGuests : List (TopGuest F) :=
  spenders F (ofHotel hotelId (fun x => x.1.2.hotelId) (guestPayments s))

variable (clock : ReportClock) (days : ReportDays) (user : User)

def exportRows (reportType : String) : Except Error (ExportRows F) := do
  let hotelId := getOptionalHotel user
  requireStaffOrAdmin user
  let finish := clock.today 0
  let start := finish - days.days
  return match reportType with
    | "occupancy" => .occupancy (exportOccupancy s hotelId days.days start finish)
    | "revenue" => .revenue (exportRevenue F clock.dateOf days.days start
        (paidBookings s hotelId fun p => clock.midnight start ≤ p.createdAt))
    | "guests" => .guests (exportGuests F s hotelId)
    | _ => .other

end

/-! ### The text -/

def csvLine (fields : List (List Char)) : List Char := [','].intercalate fields ++ ['\n']

/-- `text.replace(",", " ")`. -/
def noCommas (text : List Char) : List Char := text.map fun c => if c = ',' then ' ' else c

section

variable {F : PyFloat} (fmt : ExportFormat F)

def guestFields (g : TopGuest F) : List (List Char) :=
  [intText g.userId, noCommas g.name.toList, noCommas g.email.toList, natText g.bookingCount,
    fmt.floatText g.totalSpent]

def guestHeader : List (List Char) :=
  ["user_id".toList, "name".toList, "email".toList, "booking_count".toList, "total_spent".toList]

def guestsCsv (guests : List (TopGuest F)) : List Char :=
  csvLine guestHeader ++ guests.flatMap fun g => csvLine (guestFields fmt g)

def ExportRows.csv : ExportRows F → List Char
  | .occupancy rows => csvLine ["date".toList, "bookings".toList] ++
      rows.flatMap fun r => csvLine [fmt.dateText r.date, natText r.bookings]
  | .revenue rows => csvLine ["date".toList, "revenue".toList] ++
      rows.flatMap fun r => csvLine [fmt.dateText r.date, fmt.floatText r.revenue]
  | .guests rows => guestsCsv fmt rows
  | .other => []

def exportReport (s : Store) (clock : ReportClock) (days : ReportDays) (user : User)
    (reportType : String) : Except Error (List Char) := do
  let rows ← exportRows F s clock days user reportType
  return rows.csv fmt

theorem exportReport_ok {s : Store} {clock : ReportClock} {days : ReportDays} {user : User}
    {reportType : String} {rows : ExportRows F}
    (h : exportRows F s clock days user reportType = .ok rows) :
    exportReport fmt s clock days user reportType = .ok (rows.csv fmt) := by
  unfold exportReport
  rw [h]
  rfl

end

theorem ne_of_mem_intText {i : ℤ} {c d : Char} (hc : c ∈ intText i) (hd : d.isDigit = false)
    (hminus : d ≠ '-') : c ≠ d := by
  unfold intText at hc
  split at hc
  · rcases List.mem_cons.mp hc with rfl | hc
    · exact hminus.symm
    · exact ne_of_isDigit (isDigit_natText hc) hd
  · exact ne_of_isDigit (isDigit_natText hc) hd

theorem plain_sampleText (x : ℚ) : ∀ c ∈ intText x.num ++ ['.', '0'],
    c ≠ ',' ∧ c ≠ '"' ∧ c ≠ '\n' ∧ c ≠ '\r' := by
  intro c hc
  rcases List.mem_append.mp hc with hc | hc
  · exact ⟨ne_of_mem_intText hc rfl (by decide), ne_of_mem_intText hc rfl (by decide),
      ne_of_mem_intText hc rfl (by decide), ne_of_mem_intText hc rfl (by decide)⟩
  · rcases List.mem_pair.mp hc with rfl | rfl
    · exact ⟨by decide, by decide, by decide, by decide⟩
    · exact ⟨by decide, by decide, by decide, by decide⟩

/-- Floats that are whole numbers. -/
def sampleFormat : ExportFormat sampleFloat where
  dateText := intText
  floatText := fun (x : ℚ) => intText x.num ++ ['.', '0']
  float_plain := plain_sampleText

/-! ### Exports against reports -/

/-- The days of the session's time zone. -/
def ReportClock.Calendar (clock : ReportClock) : Prop :=
  ∀ day t, clock.midnight day ≤ t ↔ day ≤ clock.dateOf t

section

variable (s : Store) (clock : ReportClock) (days : ReportDays) (user : User)

/-- The columns of the exported texts add up to the figures of the reports. -/
def ExportsReconcile (F : ExactFloat) (fmt : ExportFormat F.toPyFloat) : Prop :=
  ∃ revenue occupancy revenueRows occupancyRows,
    revenueReport s F.toPyFloat clock days user = .ok revenue ∧
    occupancyReport F.toPyFloat s clock days user = .ok occupancy ∧
    exportRows F.toPyFloat s clock days user "revenue" = .ok (.revenue revenueRows) ∧
    exportRows F.toPyFloat s clock days user "occupancy" = .ok (.occupancy occupancyRows) ∧
    exportReport fmt s clock days user "revenue" =
      .ok ((ExportRows.revenue revenueRows).csv fmt) ∧
    exportReport fmt s clock days user "occupancy" =
      .ok ((ExportRows.occupancy occupancyRows).csv fmt) ∧
    (revenueRows.map fun r => F.value r.revenue).sum = F.value revenue.totalRevenue ∧
    (occupancyRows.map DayCount.bookings).sum = (occupancy.dailyBookings.map DayCount.bookings).sum

def todaysPayments : Multiset (Payment × Booking) :=
  (currentPayments s clock days user).filter fun x => clock.dateOf x.1.createdAt = clock.today 0

def reportedArrivals : Multiset Booking :=
  arrivals s (getOptionalHotel user) (reportStart clock days) (clock.today 0)

def todaysArrivals : Multiset Booking :=
  (reportedArrivals s clock days user).filter fun b => b.checkIn = clock.today 0

end

/-- The days that the loop of the export writes. -/
def loopDays (start : ℤ) (days : ℕ) : Multiset ℤ :=
  ((List.range days).map fun i : ℕ => start + (i : ℤ) : List ℤ)

theorem nodup_loopDays (start : ℤ) (days : ℕ) : (loopDays start days).Nodup := by
  refine Multiset.coe_nodup.mpr (List.nodup_range.map fun i j hij => ?_)
  have hsame : start + (i : ℤ) = start + (j : ℤ) := hij
  omega

theorem mem_loopDays {start day : ℤ} {days : ℕ} :
    day ∈ loopDays start days ↔ start ≤ day ∧ day < start + days := by
  unfold loopDays
  simp only [Multiset.mem_coe, List.mem_map, List.mem_range]
  constructor
  · intro h
    obtain ⟨i, hi, rfl⟩ := h
    omega
  · intro h
    exact ⟨(day - start).toNat, by omega, by omega⟩

/-- The loop leaves out one of the days that are reported. -/
theorem sum_loopDays {α R : Type} [AddCommMonoid R] (key : α → ℤ) (f : α → R) (rows : Multiset α)
    {start finish : ℤ} {days : ℕ} (hfinish : finish = start + days)
    (hrows : ∀ a ∈ rows, start ≤ key a ∧ key a ≤ finish) :
    ((loopDays start days).map fun day => sumOrZero f (rows.filter fun a => key a = day)).sum +
      sumOrZero f (rows.filter fun a => key a = finish) = sumOrZero f rows := by
  rw [sum_groups key f (nodup_loopDays start days)]
  have hsplit : rows.filter (fun a => ¬key a ∈ loopDays start days) =
      rows.filter fun a => key a = finish := by
    refine Multiset.filter_congr fun a ha => ?_
    have hbounds := hrows a ha
    rw [mem_loopDays]
    omega
  have hparts := Multiset.filter_add_not (fun a => key a ∈ loopDays start days) rows
  rw [hsplit] at hparts
  conv_rhs => rw [← hparts]
  unfold sumOrZero
  rw [Multiset.map_add, Multiset.sum_add]

section

variable {s : Store} {clock : ReportClock} {days : ReportDays} {user : User} (F : ExactFloat)

theorem sum_exportRevenue (dateOf : ℤ → ℤ) (n : ℕ) (start : ℤ)
    (rows : Multiset (Payment × Booking)) :
    ((exportRevenue F.toPyFloat dateOf n start rows).map fun r => F.value r.revenue).sum =
      ((loopDays start n).map fun day =>
        paidTotal (rows.filter fun x => dateOf x.1.createdAt = day)).sum := by
  have hvalue : ∀ day : ℤ, F.value (match groupRow (fun x : Payment × Booking =>
      dateOf x.1.createdAt) paidTotal rows day with
      | some revenue => F.ofRat revenue
      | none => F.ofRat 0) =
        paidTotal (rows.filter fun x => dateOf x.1.createdAt = day) := by
    intro day
    unfold groupRow
    dsimp only
    split
    next revenue hsome =>
      split at hsome
      · cases hsome
      · rw [F.value_ofRat, Option.some.inj hsome]
    next hnone =>
      split at hnone
      next hempty =>
        rw [F.value_ofRat, Multiset.card_eq_zero.mp hempty]
        rfl
      · cases hnone
  unfold exportRevenue loopDays
  rw [List.map_map, Multiset.map_coe, Multiset.sum_coe, List.map_map]
  congr 1
  exact List.map_congr_left fun i _ => hvalue (start + i)

theorem sum_exportOccupancy (n : ℕ) (start finish : ℤ) (hotelId : Option ℤ) :
    ((exportOccupancy s hotelId n start finish).map DayCount.bookings).sum =
      ((loopDays start n).map fun day =>
        countIn Booking.checkIn (arrivals s hotelId start finish) day).sum := by
  unfold exportOccupancy loopDays
  rw [List.map_map, Multiset.map_coe, Multiset.sum_coe, List.map_map]
  rfl

/-- The payments of the window that are not of today. -/
theorem sum_exportedRevenue (hclock : clock.Calendar)
    (hlast : ∀ x ∈ currentPayments s clock days user, clock.dateOf x.1.createdAt ≤ clock.today 0) :
    ((loopDays (reportStart clock days) days.days).map fun day =>
        paidTotal ((currentPayments s clock days user).filter fun x =>
          clock.dateOf x.1.createdAt = day)).sum + paidTotal (todaysPayments s clock days user) =
      paidTotal (currentPayments s clock days user) := by
  have hfinish : clock.today 0 = reportStart clock days + days.days := by
    unfold reportStart
    omega
  refine sum_loopDays (fun x : Payment × Booking => clock.dateOf x.1.createdAt)
    (fun x => x.1.amount) _ hfinish fun x hx => ⟨?_, hlast x hx⟩
  exact (hclock _ _).mp (mem_paidBookings.mp hx).2.2.2.1

theorem sum_exportedArrivals (s : Store) (clock : ReportClock) (days : ReportDays) (user : User) :
    ((loopDays (reportStart clock days) days.days).map fun day =>
        countIn Booking.checkIn (reportedArrivals s clock days user) day).sum +
      (todaysArrivals s clock days user).card = (reportedArrivals s clock days user).card := by
  have hfinish : clock.today 0 = reportStart clock days + days.days := by
    unfold reportStart
    omega
  have hdays := sum_loopDays Booking.checkIn (fun _ => 1) (reportedArrivals s clock days user)
    hfinish fun b hb => by
      unfold reportedArrivals arrivals ofHotel at hb
      split at hb
      · exact (Multiset.mem_filter.mp hb).2
      · exact (Multiset.mem_filter.mp (Multiset.mem_filter.mp hb).1).2
  simp only [sumOrZero_one] at hdays
  exact hdays

theorem sum_dailyBookings (rows : Multiset Booking) :
    ((((rows.map Booking.checkIn).dedup.sort (· ≤ ·)).map
      fun day => (⟨day, countIn Booking.checkIn rows day⟩ : DayCount)).map
        DayCount.bookings).sum = rows.card := by
  have hgroups := sum_all_groups Booking.checkIn (fun _ => 1) rows
  simp only [sumOrZero_one] at hgroups
  rw [List.map_map, ← hgroups, ← Multiset.sum_coe, ← Multiset.map_coe, Multiset.sort_eq]
  rfl

/-- The four answers that a member of the staff gets. -/
theorem exportsReconcile_iff_sums (F : ExactFloat) (fmt : ExportFormat F.toPyFloat)
    (hstaff : requireStaffOrAdmin user = .ok ()) :
    ExportsReconcile s clock days user F fmt ↔
      ((exportRevenue F.toPyFloat clock.dateOf days.days (reportStart clock days)
        (currentPayments s clock days user)).map fun r => F.value r.revenue).sum =
          F.value (F.ofRat (paidTotal (currentPayments s clock days user))) ∧
      ((exportOccupancy s (getOptionalHotel user) days.days (reportStart clock days)
        (clock.today 0)).map DayCount.bookings).sum =
          (reportedArrivals s clock days user).card := by
  have hrevenue : exportRows F.toPyFloat s clock days user "revenue" =
      .ok (.revenue (exportRevenue F.toPyFloat clock.dateOf days.days (reportStart clock days)
        (currentPayments s clock days user))) := by
    unfold exportRows
    rw [hstaff]
    rfl
  have hoccupancy : exportRows F.toPyFloat s clock days user "occupancy" =
      .ok (.occupancy (exportOccupancy s (getOptionalHotel user) days.days
        (reportStart clock days) (clock.today 0))) := by
    unfold exportRows
    rw [hstaff]
    rfl
  unfold ExportsReconcile revenueReport occupancyReport
  rw [hstaff, ← sum_dailyBookings]
  constructor
  · intro h
    obtain ⟨revenue, occupancy, revenueRows, occupancyRows, hr, ho, hrr, hor, -, -, hsums⟩ := h
    cases hr
    cases ho
    cases hrevenue.symm.trans hrr
    cases hoccupancy.symm.trans hor
    exact hsums
  · intro h
    exact ⟨_, _, _, _, rfl, rfl, hrevenue, hoccupancy, exportReport_ok fmt hrevenue,
      exportReport_ok fmt hoccupancy, h⟩

end

/-- The exports miss today: its payments and its arrivals. -/
theorem exports_reconcile_iff (F : ExactFloat) (fmt : ExportFormat F.toPyFloat) (s : Store)
    (clock : ReportClock) (days : ReportDays) (user : User) (hclock : clock.Calendar)
    (hstaff : requireStaffOrAdmin user = .ok ())
    (hlast : ∀ x ∈ currentPayments s clock days user, clock.dateOf x.1.createdAt ≤ clock.today 0) :
    ExportsReconcile s clock days user F fmt ↔
      paidTotal (todaysPayments s clock days user) = 0 ∧ todaysArrivals s clock days user = 0 := by
  have hrevenue := sum_exportedRevenue hclock hlast
  have harrivals := sum_exportedArrivals s clock days user
  rw [exportsReconcile_iff_sums F fmt hstaff, sum_exportRevenue, sum_exportOccupancy, F.value_ofRat,
    ← Multiset.card_eq_zero]
  refine and_congr ?_ ?_
  · rw [← hrevenue]
    exact left_eq_add
  · unfold reportedArrivals at harrivals ⊢
    omega

theorem sampleClock_calendar : sampleClock.Calendar := by
  intro day t
  show 86400 * day ≤ t ↔ day ≤ t / 86400
  omega

theorem exports_reconcile_before_today :
    ExportsReconcile revenueStore sampleClock sampleDays sampleAdmin exactReports sampleFormat := by
  have hlast : ∀ x ∈ currentPayments revenueStore sampleClock sampleDays sampleAdmin,
      sampleClock.dateOf x.1.createdAt ≤ sampleClock.today 0 := by decide +kernel
  exact (exports_reconcile_iff exactReports sampleFormat revenueStore sampleClock sampleDays
    sampleAdmin sampleClock_calendar (by decide) hlast).mpr ⟨by decide +kernel, by decide +kernel⟩

/-- A guest arrives today and has paid this morning. -/
def arrivalStore : Store :=
  { sampleStore with
    bookings := Table.empty.insert ⟨0, 1, 1, 1, 20, 22, 1, 0, none, 200, .confirmed, 0⟩
    payments := Table.empty.insert ⟨0, 1, 1, 200, "USD", "card", .succeeded, none, 1730000⟩ }

theorem exports_miss_today :
    ¬ExportsReconcile arrivalStore sampleClock sampleDays sampleAdmin exactReports
      sampleFormat := by
  intro h
  have hsums := (exportsReconcile_iff_sums exactReports sampleFormat (by decide)).mp h
  have hrevenue := hsums.1
  revert hrevenue
  decide +kernel

end HotelMs
