import HotelMs.Reports
import HotelMs.OccupancyRuns

/-!
# What a report reads of the other hotels

A caller of one hotel gets an occupancy and a revenue report that depend on the
rows of the hotel alone, as long as its bookings are for its own rooms. The
guest report has no answer for such a caller.
-/

namespace HotelMs

open Tables Queries

/-! ### Occupancy and revenue -/

/-- Two stores agree on the rows of a hotel: its own row, its rooms, their
types, its bookings and the payments of these. -/
structure SameHotelRows (h : ℤ) (s s' : Store) : Prop where
  hotel : s.hotels.get h = s'.hotels.get h
  rooms : ∀ r, r.hotelId = h → (r ∈ s.rooms.rows ↔ r ∈ s'.rooms.rows)
  roomTypes : ∀ r ∈ s.rooms.rows, r.hotelId = h →
    s.roomTypes.get r.roomTypeId = s'.roomTypes.get r.roomTypeId
  bookings : ∀ b, b.hotelId = h → (b ∈ s.bookings.rows ↔ b ∈ s'.bookings.rows)
  payments : ∀ b ∈ s.bookings.rows, b.hotelId = h → ∀ p, p.bookingId = b.id →
    (p ∈ s.payments.rows ↔ p ∈ s'.payments.rows)

/-- They also agree on the rooms that its bookings are for, and their types. -/
structure SameReportRows (h : ℤ) (s s' : Store) : Prop extends SameHotelRows h s s' where
  bookedRooms : ∀ b ∈ s.bookings.rows, b.hotelId = h →
    s.rooms.get b.roomId = s'.rooms.get b.roomId
  bookedTypes : ∀ b ∈ s.bookings.rows, b.hotelId = h → ∀ r, s.rooms.get b.roomId = some r →
    s.roomTypes.get r.roomTypeId = s'.roomTypes.get r.roomTypeId

/-- Where bookings are for rooms of their own hotel, these rooms are among the
hotel's. -/
theorem SameHotelRows.sameReportRows {h : ℤ} {s s' : Store} (hsame : SameHotelRows h s s')
    (hagree : HotelsAgree s) : SameReportRows h s s' := by
  refine ⟨hsame, fun b hb hbh => ?_, fun b hb hbh r hr => ?_⟩
  · obtain ⟨r, hr, hid, hrh⟩ := hagree b hb
    have hr' := (hsame.rooms r (hrh.trans hbh)).mp hr
    rw [(Table.get_eq_some _).mpr ⟨hr, hid⟩, (Table.get_eq_some _).mpr ⟨hr', hid⟩]
  · obtain ⟨r', hr', hid, hrh⟩ := hagree b hb
    obtain ⟨hmem, hkey⟩ := (Table.get_eq_some _).mp hr
    obtain rfl := s.rooms.eq_of_key hmem hr' (hkey.trans hid.symm)
    exact hsame.roomTypes r hmem (hrh.trans hbh)

theorem mem_ofHotel {α : Type} {h : ℤ} {hotelOf : α → ℤ} {q : Multiset α} {a : α} :
    a ∈ ofHotel (some h) hotelOf q ↔ a ∈ q ∧ hotelOf a = h :=
  Multiset.mem_filter

theorem ofHotel_filter {α : Type} {h : ℤ} {hotelOf : α → ℤ} {m m' : Multiset α}
    (hm : (m.filter fun r => hotelOf r = h) = m'.filter fun r => hotelOf r = h)
    (p : α → Prop) [DecidablePred p] :
    ofHotel (some h) hotelOf (m.filter p) = ofHotel (some h) hotelOf (m'.filter p) := by
  simp only [ofHotel]
  rw [Multiset.filter_comm, hm, Multiset.filter_comm]

section

variable {h : ℤ} {s s' : Store}

theorem SameHotelRows.bag_rooms (hsame : SameHotelRows h s s') :
    ((bag s.rooms).filter fun r => r.hotelId = h) =
      (bag s'.rooms).filter fun r => r.hotelId = h :=
  filter_eq_of_mem (nodup_bag _) (nodup_bag _) hsame.rooms

theorem SameHotelRows.bag_bookings (hsame : SameHotelRows h s s') :
    ((bag s.bookings).filter fun b => b.hotelId = h) =
      (bag s'.bookings).filter fun b => b.hotelId = h :=
  filter_eq_of_mem (nodup_bag _) (nodup_bag _) hsame.bookings

theorem SameHotelRows.joined_types (hsame : SameHotelRows h s s') :
    ((joinOn (fun r => s.roomTypes.get r.roomTypeId) (bag s.rooms)).filter
        fun x => x.1.hotelId = h) =
      (joinOn (fun r => s'.roomTypes.get r.roomTypeId) (bag s'.rooms)).filter
        fun x => x.1.hotelId = h := by
  refine filter_joinOn_eq_of_mem (nodup_bag _) (nodup_bag _) fun r t hr => ?_
  constructor
  · intro hx
    exact ⟨(hsame.rooms r hr).mp hx.1, (hsame.roomTypes r hx.1 hr).symm.trans hx.2⟩
  · intro hx
    have hmem := (hsame.rooms r hr).mpr hx.1
    exact ⟨hmem, (hsame.roomTypes r hmem hr).trans hx.2⟩

theorem SameHotelRows.joined_payments (hsame : SameHotelRows h s s') :
    ((joinOn (fun p => s.bookings.get p.bookingId) (bag s.payments)).filter
        fun x => x.2.hotelId = h) =
      (joinOn (fun p => s'.bookings.get p.bookingId) (bag s'.payments)).filter
        fun x => x.2.hotelId = h := by
  refine filter_joinOn_eq_of_mem (nodup_bag _) (nodup_bag _) fun p b hb => ?_
  simp only [mem_bag, Table.get_eq_some, key_booking]
  constructor
  · intro hx
    obtain ⟨hp, hmem, hid⟩ := hx
    exact ⟨(hsame.payments b hmem hb p hid.symm).mp hp, (hsame.bookings b hb).mp hmem, hid⟩
  · intro hx
    obtain ⟨hp, hmem', hid⟩ := hx
    have hmem := (hsame.bookings b hb).mpr hmem'
    exact ⟨(hsame.payments b hmem hb p hid.symm).mpr hp, hmem, hid⟩

theorem SameReportRows.roomOf (hsame : SameReportRows h s s') {b : Booking}
    (hb : b ∈ s.bookings.rows) (hbh : b.hotelId = h) : s.roomOf b = s'.roomOf b := by
  unfold Store.roomOf
  rw [← hsame.bookedRooms b hb hbh]
  cases hr : s.rooms.get b.roomId with
  | none => rfl
  | some r =>
    simp only [Option.bind_eq_bind, Option.bind_some, hsame.bookedTypes b hb hbh r hr]

theorem SameReportRows.joined_rooms (hsame : SameReportRows h s s') :
    ((joinOn s.roomOf (bag s.bookings)).filter fun x => x.1.hotelId = h) =
      (joinOn s'.roomOf (bag s'.bookings)).filter fun x => x.1.hotelId = h := by
  refine filter_joinOn_eq_of_mem (nodup_bag _) (nodup_bag _) fun b x hb => ?_
  constructor
  · intro hx
    exact ⟨(hsame.bookings b hb).mp hx.1, (hsame.roomOf hx.1 hb).symm.trans hx.2⟩
  · intro hx
    have hmem := (hsame.bookings b hb).mpr hx.1
    exact ⟨hmem, (hsame.roomOf hmem hb).trans hx.2⟩

theorem totalRooms_eq (hsame : SameHotelRows h s s') :
    totalRooms s (some h) = totalRooms s' (some h) := by
  unfold totalRooms
  rw [ofHotel_filter hsame.bag_rooms]

theorem bookedCount_eq (hsame : SameHotelRows h s s') (p : Booking → Prop) [DecidablePred p] :
    bookedCount s (some h) p = bookedCount s' (some h) p := by
  unfold bookedCount
  rw [ofHotel_filter hsame.bag_bookings]

theorem totalNights_eq (hsame : SameHotelRows h s s') (p : Booking → Prop) [DecidablePred p] :
    totalNights s (some h) p = totalNights s' (some h) p := by
  unfold totalNights
  rw [ofHotel_filter hsame.bag_bookings]

theorem arrivals_eq (hsame : SameHotelRows h s s') (start finish : ℤ) :
    arrivals s (some h) start finish = arrivals s' (some h) start finish :=
  ofHotel_filter hsame.bag_bookings _

theorem byRoomType_eq (F : PyFloat) (hsame : SameReportRows h s s') (days : ℕ)
    (start finish : ℤ) :
    byRoomType F s (some h) days start finish = byRoomType F s' (some h) days start finish := by
  have hrooms : typedRooms s (some h) = typedRooms s' (some h) :=
    ofHotel_filter hsame.joined_types _
  have hbooked : typedBookings s (some h) start finish = typedBookings s' (some h) start finish :=
    ofHotel_filter hsame.joined_rooms _
  unfold byRoomType
  rw [hrooms, hbooked]

theorem occupancyReport_eq (F : PyFloat) (hsame : SameReportRows h s s') (clock : ReportClock)
    (days : ReportDays) {user : User} (huser : getOptionalHotel user = some h) :
    occupancyReport F s clock days user = occupancyReport F s' clock days user := by
  have hrows := hsame.toSameHotelRows
  unfold occupancyReport
  simp only [huser, totalRooms_eq hrows, bookedCount_eq hrows, totalNights_eq hrows,
    arrivals_eq hrows, byRoomType_eq F hsame]

theorem paidBookings_eq (hsame : SameHotelRows h s s') (p : Payment → Prop) [DecidablePred p] :
    paidBookings s (some h) p = paidBookings s' (some h) p :=
  ofHotel_filter hsame.joined_payments _

theorem cancelledTotal_eq (hsame : SameHotelRows h s s') (since : ℤ) :
    cancelledTotal s (some h) since = cancelledTotal s' (some h) since := by
  unfold cancelledTotal
  rw [ofHotel_filter hsame.bag_bookings]

theorem byHotel_eq (F : PyFloat) (hsame : SameHotelRows h s s') (p : Payment → Prop)
    [DecidablePred p] :
    byHotel s F (paidBookings s' (some h) p) = byHotel s' F (paidBookings s' (some h) p) := by
  have hjoin : joinOn (fun x => s.hotels.get x.2.hotelId) (paidBookings s' (some h) p) =
      joinOn (fun x => s'.hotels.get x.2.hotelId) (paidBookings s' (some h) p) := by
    refine joinOn_congr fun x hx => ?_
    have hhotel : x.2.hotelId = h := (mem_ofHotel.mp hx).2
    rw [hhotel, hsame.hotel]
  unfold byHotel
  rw [hjoin]

theorem revenueReport_eq (F : PyFloat) (hsame : SameHotelRows h s s') (clock : ReportClock)
    (days : ReportDays) {user : User} (huser : getOptionalHotel user = some h) :
    revenueReport s F clock days user = revenueReport s' F clock days user := by
  unfold revenueReport
  simp only [huser, byHotel_eq F hsame, paidBookings_eq hsame, cancelledTotal_eq hsame]

/-- A caller of one hotel reads nothing of the others. -/
theorem reports_isolated (F : PyFloat) (hsame : SameReportRows h s s') (clock : ReportClock)
    (days : ReportDays) {user : User} (huser : getOptionalHotel user = some h) :
    occupancyReport F s clock days user = occupancyReport F s' clock days user ∧
      revenueReport s F clock days user = revenueReport s' F clock days user :=
  ⟨occupancyReport_eq F hsame clock days huser,
    revenueReport_eq F hsame.toSameHotelRows clock days huser⟩

end

def sampleFloat : PyFloat where
  Carrier := ℚ
  ofRat := fun x => x
  mul := fun x y => x * y
  sub := fun x y => x - y
  div := fun x y => x / y
  round := fun x n => ⌊x * 10 ^ n + 1 / 2⌋ / 10 ^ n
  lt := fun x y => x < y

def sampleClock : ReportClock := ⟨fun _ => 20, fun day => 86400 * day, fun t => t / 86400⟩

def sampleDays : ReportDays := ⟨30, by decide, by decide⟩

def sampleAdmin : User := sampleUser .hotelAdmin "c@x.org" (some 1)

def straddlingStore (typeName : String) : Store :=
  { sampleStore with
    hotels := sampleStore.hotels.insert
      ⟨2, "Plaza", none, none, none, none, none, none, none, none, none, 0, 0⟩
    roomTypes := sampleStore.roomTypes.insert ⟨2, 2, typeName, none⟩
    rooms := sampleStore.rooms.insert ⟨2, 2, 2, none, none, some 100, none, true⟩
    bookings := Table.empty.insert ⟨1, 1, 1, 2, 10, 12, 1, 0, none, 200, .confirmed, 0⟩ }

/-- Only the name of the other hotel's room type differs. -/
theorem occupancy_reads_other_hotel :
    SameHotelRows 1 (straddlingStore "Double") (straddlingStore "Suite") ∧
      getOptionalHotel sampleAdmin = some 1 ∧
      occupancyReport sampleFloat (straddlingStore "Double") sampleClock sampleDays sampleAdmin ≠
        occupancyReport sampleFloat (straddlingStore "Suite") sampleClock sampleDays
          sampleAdmin := by
  refine ⟨⟨by decide +kernel, fun _ _ => Iff.rfl, by decide +kernel, fun _ _ => Iff.rfl,
    fun _ _ _ _ _ => Iff.rfl⟩, by decide, fun h => ?_⟩
  have hbooked := congrArg (fun r => r.toOption.map fun x => x.byRoomType.map fun t => t.booked) h
  revert hbooked
  decide +kernel

theorem reports_isolated_new_hotel :
    getOptionalHotel sampleAdmin = some 1 ∧
      occupancyReport sampleFloat bookedStore sampleClock sampleDays sampleAdmin =
        occupancyReport sampleFloat { bookedStore with hotels := (straddlingStore "Suite").hotels }
          sampleClock sampleDays sampleAdmin := by
  have hsame : SameReportRows 1 bookedStore
      { bookedStore with hotels := (straddlingStore "Suite").hotels } := by
    refine ⟨⟨by decide +kernel, fun _ _ => Iff.rfl, fun _ _ _ => rfl, fun _ _ => Iff.rfl,
      fun _ _ _ _ _ => Iff.rfl⟩, fun _ _ _ => rfl, fun _ _ _ _ _ => rfl⟩
  have huser : getOptionalHotel sampleAdmin = some 1 := by decide
  exact ⟨huser, (reports_isolated sampleFloat hsame sampleClock sampleDays huser).1⟩

/-! ### Guests -/

def Store.onlyHotel (s : Store) (h : ℤ) : Store :=
  { s with
    bookings := s.bookings.deleteWhere fun b => b.hotelId ≠ h
    payments := s.payments.deleteWhere fun p =>
      !s.bookings.any fun b => b.id = p.bookingId && b.hotelId = h }

section

variable (s : Store) (F : PyFloat) (Q : QueryApi) (clock : ReportClock) (days : ReportDays)

theorem topGuests_scoped (h : ℤ) : topGuests s (some h) F Q = .error .invalidRequest := by
  simp only [topGuests, Q.filter_limit]

theorem topGuests_unscoped :
    topGuests s none F Q = .ok ((spenders F (guestPayments s)).take 10) := by
  simp only [topGuests, Q.all_limit]

theorem guestAnalytics_scoped {h : ℤ} {user : User} (huser : getOptionalHotel user = some h)
    (r : GuestReport F) : guestAnalytics s F Q clock days user ≠ .ok r := by
  unfold guestAnalytics
  simp only [huser, topGuests_scoped]
  intro hok
  cases hrole : requireStaffOrAdmin user with
  | error e =>
    rw [hrole] at hok
    cases hok
  | ok _ =>
    rw [hrole] at hok
    cases hok

theorem guestAnalytics_unscoped {user : User} (huser : getOptionalHotel user = none)
    (hrole : requireStaffOrAdmin user = .ok ()) :
    ∃ r, guestAnalytics s F Q clock days user = .ok r := by
  unfold guestAnalytics
  rw [hrole]
  simp only [huser, topGuests_unscoped]
  exact ⟨_, rfl⟩

/-- Every scoped call raises, where the unscoped one on the restricted store has
figures. -/
theorem guestAnalytics_ne_restricted {h : ℤ} {user unscoped : User}
    (huser : getOptionalHotel user = some h) (hunscoped : getOptionalHotel unscoped = none)
    (hrole : requireStaffOrAdmin unscoped = .ok ()) :
    guestAnalytics s F Q clock days user ≠
      guestAnalytics (s.onlyHotel h) F Q clock days unscoped := by
  obtain ⟨r, hr⟩ := guestAnalytics_unscoped (s.onlyHotel h) F Q clock days hunscoped hrole
  rw [hr]
  exact guestAnalytics_scoped s F Q clock days huser r

end

def sampleQueryApi : QueryApi where
  Query := fun ρ β => Multiset ρ × (Multiset ρ → List β) × Option ℕ
  select := fun rows out => (rows, out, none)
  limit := fun n q => (q.1, q.2.1, some n)
  filter := fun p q => if q.2.2.isSome then none else some (q.1.filter fun r => p r, q.2)
  all := fun q => ((q.2.2).map fun n => (q.2.1 q.1).take n).getD (q.2.1 q.1)
  all_limit := fun _ _ _ => rfl
  filter_limit := fun _ _ _ => rfl

def sampleSuperAdmin : User := sampleUser .superAdmin "d@x.org" none

theorem guest_report_of_sample_fails :
    getOptionalHotel sampleAdmin = some 1 ∧ getOptionalHotel sampleSuperAdmin = none ∧
      guestAnalytics sampleStore sampleFloat sampleQueryApi sampleClock sampleDays sampleAdmin ≠
        guestAnalytics (sampleStore.onlyHotel 1) sampleFloat sampleQueryApi sampleClock sampleDays
          sampleSuperAdmin := by
  refine ⟨by decide, by decide, fun h => ?_⟩
  have hok := congrArg (fun r => r.isOk) h
  revert hok
  decide +kernel

theorem guestAnalytics_ne_sample :
    getOptionalHotel sampleAdmin = some 1 ∧
      guestAnalytics bookedStore sampleFloat sampleQueryApi sampleClock sampleDays sampleAdmin ≠
        guestAnalytics (bookedStore.onlyHotel 1) sampleFloat sampleQueryApi sampleClock sampleDays
          sampleSuperAdmin := by
  have huser : getOptionalHotel sampleAdmin = some 1 := by decide
  have hunscoped : getOptionalHotel sampleSuperAdmin = none := by decide
  exact ⟨huser, guestAnalytics_ne_restricted bookedStore sampleFloat sampleQueryApi sampleClock
    sampleDays huser hunscoped rfl⟩

end HotelMs
