import HotelMs.Dependencies
import HotelMs.Lib.Queries
import Mathlib.Data.String.Basic
import Mathlib.Algebra.Order.Ring.Rat

/-!
# Reports (`api/v1/admin/reports.py`)

The occupancy, revenue and guest reports. A date stands for its text, and
`is_active` is never null here.
-/

namespace HotelMs

open Tables Queries

/-- Python floats, as far as the reports compute with them: `ofRat` is the float
nearest to a quotient of integers or to a `Decimal`. -/
structure PyFloat where
  Carrier : Type
  ofRat : ℚ → Carrier
  mul : Carrier → Carrier → Carrier
  sub : Carrier → Carrier → Carrier
  div : Carrier → Carrier → Carrier
  round : Carrier → ℕ → Carrier
  lt : Carrier → Carrier → Bool

inductive PyNumber (F : PyFloat)
  | int (n : ℤ)
  | float (x : F.Carrier)

/-- `today i` is the answer to the `i`-th `date.today()`; `midnight` and `dateOf`
are those of the session's time zone. -/
structure ReportClock where
  today : ℕ → ℤ
  midnight : ℤ → ℤ
  dateOf : ℤ → ℤ

/-- `Query(30, ge=1, le=365)`. -/
structure ReportDays where
  days : ℕ
  ge : 1 ≤ days
  le : days ≤ 365

/-- `date.weekday()`, Monday is 0. -/
def weekday (day : ℤ) : ℤ := (day + 6) % 7

/-- `if hotel_id is not None: q = q.filter(… == hotel_id)`. -/
def ofHotel {α : Type} (hotelId : Option ℤ) (hotelOf : α → ℤ) (q : Multiset α) : Multiset α :=
  match hotelId with
  | none => q
  | some h => q.filter fun r => hotelOf r = h

def Booking.notCancelled (b : Booking) : Prop := b.status ∈ [.pending, .confirmed, .completed]

def Booking.kept (b : Booking) : Prop := b.status ∈ [.confirmed, .completed]

instance (b : Booking) : Decidable b.notCancelled := inferInstanceAs (Decidable (_ ∈ _))

instance (b : Booking) : Decidable b.kept := inferInstanceAs (Decidable (_ ∈ _))

/-! ### Occupancy -/

structure DayCount where
  date : ℤ
  bookings : ℕ

structure HeatmapDay where
  date : ℤ
  dow : ℤ
  bookings : ℕ

structure ForecastDay (F : PyFloat) where
  date : ℤ
  projected : F.Carrier

structure RoomTypeOccupancy (F : PyFloat) where
  roomType : String
  totalRooms : ℕ
  booked : ℕ
  occupancyPct : PyNumber F

structure PreviousOccupancy (F : PyFloat) where
  totalBookings : ℕ
  occupancyRatePct : PyNumber F

structure OccupancyReport (F : PyFloat) where
  periodDays : ℕ
  totalRooms : ℕ
  totalBookings : ℕ
  occupancyRatePct : PyNumber F
  dailyBookings : List DayCount
  vsPrevious : PreviousOccupancy F
  byRoomType : Multiset (RoomTypeOccupancy F)
  heatmap : List HeatmapDay
  forecast : List (ForecastDay F)

section

variable (F : PyFloat)

/-- `round((nights / (rooms * days)) * 100, 2) if rooms else 0`. -/
def occupancyPct (nights : ℤ) (rooms days : ℕ) : PyNumber F :=
  if rooms = 0 then .int 0
  else .float (F.round (F.mul (F.ofRat (nights / (rooms * days))) (F.ofRat 100)) 2)

variable (s : Store) (hotelId : Option ℤ)

def totalRooms : ℕ :=
  let count := (ofHotel hotelId Room.hotelId ((bag s.rooms).filter fun r => r.isActive = true)).card
  if count = 0 then 1 else count

def bookedCount (p : Booking → Prop) [DecidablePred p] : ℕ :=
  (ofHotel hotelId Booking.hotelId ((bag s.bookings).filter fun b => b.notCancelled ∧ p b)).card

def totalNights (p : Booking → Prop) [DecidablePred p] : ℤ :=
  sumOrZero (fun b => b.checkOut - b.checkIn)
    (ofHotel hotelId Booking.hotelId ((bag s.bookings).filter fun b => b.kept ∧ p b))

/-- The bookings by check-in date. -/
def arrivals (start finish : ℤ) : Multiset Booking :=
  ofHotel hotelId Booking.hotelId
    ((bag s.bookings).filter fun b => start ≤ b.checkIn ∧ b.checkIn ≤ finish)

/-- Rooms joined with their types. -/
def typedRooms : Multiset (Room × RoomType) :=
  ofHotel hotelId (fun x => x.1.hotelId)
    ((joinOn (fun r => s.roomTypes.get r.roomTypeId) (bag s.rooms)).filter
      fun x => x.1.isActive = true)

def Store.roomOf (b : Booking) : Option (Room × RoomType) := do
  let room ← s.rooms.get b.roomId
  let type ← s.roomTypes.get room.roomTypeId
  return (room, type)

/-- Bookings joined with their rooms and types, scoped by the booking. -/
def typedBookings (start finish : ℤ) : Multiset (Booking × Room × RoomType) :=
  ofHotel hotelId (fun x => x.1.hotelId)
    ((joinOn s.roomOf (bag s.bookings)).filter
      fun x => x.1.kept ∧ start ≤ x.1.checkIn ∧ x.1.checkIn ≤ finish)

def byRoomType (days : ℕ) (start finish : ℤ) : Multiset (RoomTypeOccupancy F) :=
  groupBy (fun x => x.2.name) (fun name rooms =>
    let booked := countIn (fun x => x.2.2.name) (typedBookings s hotelId start finish) name
    ⟨name, rooms.card, booked, occupancyPct F booked rooms.card days⟩) (typedRooms s hotelId)

def forecastDay (arrived : Multiset Booking) (days : ℕ) (start today : ℤ) (i : ℕ) :
    ForecastDay F :=
  let futureDay := today + (i + 1)
  let sameDow := ((List.range days).filter fun j => weekday (start + j) = weekday futureDay).map
    fun j => countIn Booking.checkIn arrived (start + j)
  let last4 := if 4 ≤ sameDow.length then sameDow.drop (sameDow.length - 4) else sameDow
  ⟨futureDay, if last4 = [] then F.ofRat 0
    else F.round (F.ofRat ((last4.sum : ℕ) / (last4.length : ℕ))) 1⟩

variable (clock : ReportClock) (days : ReportDays) (user : User)

def occupancyReport : Except Error (OccupancyReport F) := do
  let hotelId := getOptionalHotel user
  requireStaffOrAdmin user
  let finish := clock.today 0
  let start := finish - days.days
  let prevStart := start - days.days
  let rooms := totalRooms s hotelId
  let arrived := arrivals s hotelId start finish
  return {
    periodDays := days.days
    totalRooms := rooms
    totalBookings := bookedCount s hotelId fun b => clock.midnight start ≤ b.createdAt
    occupancyRatePct := occupancyPct F
      (totalNights s hotelId fun b => start ≤ b.checkIn ∧ b.checkIn ≤ finish) rooms days.days
    dailyBookings := ((arrived.map Booking.checkIn).dedup.sort (· ≤ ·)).map
      fun day => ⟨day, countIn Booking.checkIn arrived day⟩
    vsPrevious := {
      totalBookings := bookedCount s hotelId fun b =>
        clock.midnight prevStart ≤ b.createdAt ∧ b.createdAt < clock.midnight start
      occupancyRatePct := occupancyPct F
        (totalNights s hotelId fun b => prevStart ≤ b.checkIn ∧ b.checkIn < start) rooms days.days }
    byRoomType := byRoomType F s hotelId days.days start finish
    heatmap := (List.range days.days).map fun i =>
      ⟨start + i, weekday (start + i), countIn Booking.checkIn arrived (start + i)⟩
    forecast := (List.range 14).map fun i =>
      forecastDay F arrived days.days start (clock.today (i + 1)) i }

end

/-! ### Revenue -/

structure DayRevenue (F : PyFloat) where
  date : ℤ
  revenue : F.Carrier

structure HotelRevenue (F : PyFloat) where
  hotelId : ℤ
  hotelName : String
  revenue : F.Carrier

structure RevenueReport (F : PyFloat) where
  periodDays : ℕ
  totalRevenue : F.Carrier
  currency : String
  dailyRevenue : List (DayRevenue F)
  previousRevenue : F.Carrier
  byHotel : List (HotelRevenue F)
  cancellationLosses : F.Carrier
  taxEstimate : F.Carrier
  netRevenue : F.Carrier
  avgDailyRevenue : F.Carrier

section

variable (s : Store) (hotelId : Option ℤ)

/-- Succeeded payments joined with their bookings. -/
def paidBookings (p : Payment → Prop) [DecidablePred p] : Multiset (Payment × Booking) :=
  ofHotel hotelId (fun x => x.2.hotelId)
    ((joinOn (fun p => s.bookings.get p.bookingId) (bag s.payments)).filter
      fun x => x.1.status = .succeeded ∧ p x.1)

def paidTotal (rows : Multiset (Payment × Booking)) : ℚ := sumOrZero (fun x => x.1.amount) rows

def cancelledTotal (since : ℤ) : ℚ :=
  sumOrZero Booking.totalPrice (ofHotel hotelId Booking.hotelId
    ((bag s.bookings).filter fun b => b.status = .cancelled ∧ since ≤ b.createdAt))

variable (F : PyFloat)

def byHotel (rows : Multiset (Payment × Booking)) : List (HotelRevenue F) :=
  let joined := joinOn (fun x => s.hotels.get x.2.hotelId) rows
  let groups := groupBy (fun x => (x.2.id, x.2.name))
    (fun k group => toLex (k.1, toLex (k.2, sumOrZero (fun x => x.1.1.amount) group))) joined
  (sortDesc (fun g => (ofLex (ofLex g).2).2) groups).map fun g =>
    ⟨(ofLex g).1, (ofLex (ofLex g).2).1, F.ofRat (ofLex (ofLex g).2).2⟩

def dailyRevenue (dateOf : ℤ → ℤ) (rows : Multiset (Payment × Booking)) : List (DayRevenue F) :=
  ((rows.map fun x => dateOf x.1.createdAt).dedup.sort (· ≤ ·)).map fun day =>
    ⟨day, F.ofRat (paidTotal (rows.filter fun x => dateOf x.1.createdAt = day))⟩

variable (clock : ReportClock) (days : ReportDays) (user : User)

def revenueReport : Except Error (RevenueReport F) := do
  let hotelId := getOptionalHotel user
  requireStaffOrAdmin user
  let start := clock.today 0 - days.days
  let prevStart := start - days.days
  let rows := paidBookings s hotelId fun p => clock.midnight start ≤ p.createdAt
  let totalRevenue := F.ofRat (paidTotal rows)
  let taxEstimate := F.round (F.mul totalRevenue (F.ofRat (1 / 10))) 2
  return {
    periodDays := days.days
    totalRevenue
    currency := "USD"
    dailyRevenue := dailyRevenue F clock.dateOf rows
    previousRevenue := F.ofRat (paidTotal (paidBookings s hotelId fun p =>
      clock.midnight prevStart ≤ p.createdAt ∧ p.createdAt < clock.midnight start))
    byHotel := byHotel s F rows
    cancellationLosses := F.ofRat (cancelledTotal s hotelId (clock.midnight start))
    taxEstimate
    netRevenue := F.round (F.sub totalRevenue taxEstimate) 2
    avgDailyRevenue := F.round (F.div totalRevenue (F.ofRat (max days.days 1 : ℕ))) 2 }

end

/-! ### Guests -/

/-- SQLAlchemy's `Query`, as far as `guest_analytics` builds on it: rows to scan
and what to make of them. A query with a LIMIT refuses `filter`. -/
structure QueryApi where
  Query : Type → Type → Type
  select : {ρ β : Type} → Multiset ρ → (Multiset ρ → List β) → Query ρ β
  limit : {ρ β : Type} → ℕ → Query ρ β → Query ρ β
  filter : {ρ β : Type} → (ρ → Bool) → Query ρ β → Option (Query ρ β)
  all : {ρ β : Type} → Query ρ β → List β
  all_limit : ∀ {ρ β : Type} (n : ℕ) (rows : Multiset ρ) (out : Multiset ρ → List β),
    all (limit n (select rows out)) = (out rows).take n
  filter_limit : ∀ {ρ β : Type} (p : ρ → Bool) (n : ℕ) (q : Query ρ β),
    filter p (limit n q) = none

/-- `invalidRequest` is SQLAlchemy's `InvalidRequestError`, which nothing catches. -/
inductive ReportError
  | refused (e : Error)
  | invalidRequest

structure TopGuest (F : PyFloat) where
  userId : ℤ
  name : String
  email : String
  bookingCount : ℕ
  totalSpent : F.Carrier

structure ClvSegments where
  under500 : ℕ
  from500To2000 : ℕ
  from2000To5000 : ℕ
  over5000 : ℕ
  deriving DecidableEq

structure BookingFrequency where
  oneTime : ℕ
  repeat2x : ℕ
  loyal3plus : ℕ
  deriving DecidableEq

structure GuestReport (F : PyFloat) where
  periodDays : ℕ
  newGuests : ℕ
  returningGuests : ℕ
  totalGuests : ℕ
  returnRatePct : PyNumber F
  bookingsByStatus : Multiset (BookingStatus × ℕ)
  topGuests : List (TopGuest F)
  avgNights : F.Carrier
  avgStayDays : F.Carrier
  clvSegments : ClvSegments
  bookingFrequency : BookingFrequency

section

variable (s : Store) (hotelId : Option ℤ)

def guestBookings (p : Booking → Prop) [DecidablePred p] : Multiset Booking :=
  ofHotel hotelId Booking.hotelId ((bag s.bookings).filter p)

/-- Succeeded payments joined with their bookings and the guests of these. -/
def guestPayments : Multiset ((Payment × Booking) × User) :=
  (joinOn (fun x => s.users.get x.2.userId)
    (joinOn (fun p => s.bookings.get p.bookingId) (bag s.payments))).filter
      fun x => x.1.1.status = .succeeded

variable (F : PyFloat)

/-- `GROUP BY` the user, the biggest spender first. -/
def spenders (rows : Multiset ((Payment × Booking) × User)) : List (TopGuest F) :=
  let groups := groupBy (fun x => (x.2.id, x.2.fullName, x.2.email))
    (fun k group => toLex (sumOrZero (fun x => x.1.1.amount) group, toLex (k.1,
      toLex (((k.2.1).filter (· ≠ "")).getD "Guest", toLex (k.2.2, group.card))))) rows
  (sortDesc (fun g => (ofLex g).1) groups).map fun g =>
    let spent := (ofLex g).1
    let key := ofLex (ofLex g).2
    let labels := ofLex (ofLex key.2).2
    ⟨key.1, (ofLex key.2).1, labels.1, labels.2, F.ofRat spent⟩

variable (Q : QueryApi)

/-- The query is limited to ten rows before it is filtered. -/
def topGuests : Except ReportError (List (TopGuest F)) :=
  let q := Q.limit 10 (Q.select (guestPayments s) (spenders F))
  match hotelId with
  | none => .ok (Q.all q)
  | some h =>
    match Q.filter (fun x => x.1.2.hotelId = h) q with
    | none => .error .invalidRequest
    | some filtered => .ok (Q.all filtered)

/-- The bucket of each total, by `spend < 500`, `spend < 2000`, `spend < 5000`. -/
def clvSegments (spends : Multiset F.Carrier) : ClvSegments :=
  let under := fun (limit : ℚ) (spend : F.Carrier) => F.lt spend (F.ofRat limit)
  ⟨(spends.filter fun x => under 500 x).card,
    (spends.filter fun x => !under 500 x && under 2000 x).card,
    (spends.filter fun x => !under 500 x && !under 2000 x && under 5000 x).card,
    (spends.filter fun x => !under 500 x && !under 2000 x && !under 5000 x).card⟩

def bookingFrequency (counts : Multiset ℕ) : BookingFrequency :=
  ⟨(counts.filter fun n => n = 1).card, (counts.filter fun n => n = 2).card,
    (counts.filter fun n => n ≠ 1 ∧ n ≠ 2).card⟩

/-- All-time payments by guest: no filter by hotel. -/
def allTimeSpends : Multiset F.Carrier :=
  groupBy Payment.userId (fun _ group => F.ofRat (sumOrZero Payment.amount group))
    ((bag s.payments).filter fun p => p.status = .succeeded)

/-- All-time bookings by guest: no filter by hotel. -/
def allTimeBookings : Multiset ℕ :=
  groupBy Booking.userId (fun _ group => group.card) (bag s.bookings)

def avgNights (rows : Multiset Booking) : F.Carrier :=
  if rows.card = 0 then F.ofRat 0
  else F.round (F.ofRat
    ((sumOrZero (fun b => b.checkOut - b.checkIn) rows : ℤ) / (rows.card : ℕ))) 1

def returnRate (returning total : ℕ) : PyNumber F :=
  if total = 0 then .int 0
  else .float (F.round (F.mul (F.ofRat (returning / total)) (F.ofRat 100)) 1)

variable (clock : ReportClock) (days : ReportDays) (user : User)

def guestAnalytics : Except ReportError (GuestReport F) := do
  let hotelId := getOptionalHotel user
  (requireStaffOrAdmin user).mapError .refused
  let start := clock.midnight (clock.today 0 - days.days)
  let period := guestBookings s hotelId fun b => start ≤ b.createdAt
  let newGuests := countDistinct Booking.userId period
  let returning := countDistinct Booking.userId
    (guestBookings s hotelId fun b => b.createdAt < start)
  let top ← topGuests s hotelId F Q
  return {
    periodDays := days.days
    newGuests
    returningGuests := returning
    totalGuests := newGuests + returning
    returnRatePct := returnRate F returning (newGuests + returning)
    bookingsByStatus := groupBy Booking.status (fun status group => (status, group.card)) period
    topGuests := top
    avgNights := avgNights F period
    avgStayDays := avgNights F period
    clvSegments := clvSegments F (allTimeSpends s F)
    bookingFrequency := bookingFrequency (allTimeBookings s) }

end

end HotelMs
