import HotelMs.ReportScope

/-!
# The figures of the revenue report

The total, the days and the hotels add up the same payments, and the two windows
of the report lie side by side.
-/

namespace HotelMs

open Tables Queries

/-- Exact arithmetic: a figure is the number it was made from. -/
structure ExactFloat extends PyFloat where
  value : Carrier → ℚ
  value_ofRat : ∀ x, value (ofRat x) = x

def exactReports : ExactFloat where
  toPyFloat := sampleFloat
  value := fun (x : ℚ) => x
  value_ofRat := fun _ => rfl

/-- Each payment has its booking and each booking its hotel. -/
structure Store.PaymentsTraced (s : Store) : Prop where
  bookings : ∀ p ∈ s.payments.rows, (s.bookings.get p.bookingId).isSome = true
  hotels : ∀ b ∈ s.bookings.rows, (s.hotels.get b.hotelId).isSome = true

/-! ### Windows -/

def Since (clock : ReportClock) (day : ℤ) (p : Payment) : Prop := clock.midnight day ≤ p.createdAt

def Between (clock : ReportClock) (day next : ℤ) (p : Payment) : Prop :=
  clock.midnight day ≤ p.createdAt ∧ p.createdAt < clock.midnight next

instance (clock : ReportClock) (day : ℤ) (p : Payment) : Decidable (Since clock day p) :=
  inferInstanceAs (Decidable (_ ≤ _))

instance (clock : ReportClock) (day next : ℤ) (p : Payment) :
    Decidable (Between clock day next p) :=
  inferInstanceAs (Decidable (_ ∧ _))

section

variable (s : Store) (clock : ReportClock) (days : ReportDays) (user : User)

def reportStart : ℤ := clock.today 0 - days.days

def currentPayments : Multiset (Payment × Booking) :=
  paidBookings s (getOptionalHotel user) (Since clock (reportStart clock days))

def previousPayments : Multiset (Payment × Booking) :=
  paidBookings s (getOptionalHotel user)
    (Between clock (reportStart clock days - days.days) (reportStart clock days))

/-- The windows share no payment, and a succeeded payment of the caller's scope
since the start of the previous one is in one of them. -/
structure WindowsTile : Prop where
  apart : ∀ x ∈ currentPayments s clock days user, x ∉ previousPayments s clock days user
  cover : ∀ p ∈ s.payments.rows, p.status = .succeeded →
    Since clock (reportStart clock days - days.days) p →
    ∃ b, s.bookings.get p.bookingId = some b ∧ ((∀ h ∈ getOptionalHotel user, b.hotelId = h) →
      (p, b) ∈ currentPayments s clock days user ∨ (p, b) ∈ previousPayments s clock days user)

/-- The figures of a report are those of its windows and agree with each other. -/
structure RevenueReport.Agrees (F : ExactFloat) (r : RevenueReport F.toPyFloat) : Prop where
  current : F.value r.totalRevenue = paidTotal (currentPayments s clock days user)
  previous : F.value r.previousRevenue = paidTotal (previousPayments s clock days user)
  daily : (r.dailyRevenue.map fun d => F.value d.revenue).sum = F.value r.totalRevenue
  hotels : (r.byHotel.map fun h => F.value h.revenue).sum = F.value r.totalRevenue
  dates : (r.dailyRevenue.map DayRevenue.date).Pairwise (· < ·)

end

/-! ### Sums -/

section

variable {s : Store} {clock : ReportClock} {days : ReportDays} {user : User} (F : ExactFloat)

theorem mem_paidBookings {hotelId : Option ℤ} {p : Payment → Prop} [DecidablePred p]
    {x : Payment × Booking} :
    x ∈ paidBookings s hotelId p ↔ x.1 ∈ s.payments.rows ∧
      s.bookings.get x.1.bookingId = some x.2 ∧ x.1.status = .succeeded ∧ p x.1 ∧
      ∀ h ∈ hotelId, x.2.hotelId = h := by
  unfold paidBookings
  cases hotelId with
  | none =>
    simp only [ofHotel, Multiset.mem_filter, mem_joinOn, mem_bag]
    constructor
    · intro hx
      exact ⟨hx.1.1, hx.1.2, hx.2.1, hx.2.2, fun h hh => by cases hh⟩
    · intro hx
      exact ⟨⟨hx.1, hx.2.1⟩, hx.2.2.1, hx.2.2.2.1⟩
  | some h =>
    rw [mem_ofHotel, Multiset.mem_filter, mem_joinOn, mem_bag]
    constructor
    · intro hx
      obtain ⟨⟨⟨hp, hb⟩, hstatus, hwindow⟩, hhotel⟩ := hx
      refine ⟨hp, hb, hstatus, hwindow, fun k hk => ?_⟩
      rw [← Option.mem_some.mp hk]
      exact hhotel
    · intro hx
      obtain ⟨hp, hb, hstatus, hwindow, hhotel⟩ := hx
      exact ⟨⟨⟨hp, hb⟩, hstatus, hwindow⟩, hhotel h rfl⟩

theorem sum_dailyRevenue (dateOf : ℤ → ℤ) (rows : Multiset (Payment × Booking)) :
    ((dailyRevenue F.toPyFloat dateOf rows).map fun d => F.value d.revenue).sum =
      paidTotal rows := by
  have hvalues : (dailyRevenue F.toPyFloat dateOf rows).map (fun d => F.value d.revenue) =
      ((rows.map fun x => dateOf x.1.createdAt).dedup.sort (· ≤ ·)).map fun day =>
        paidTotal (rows.filter fun x => dateOf x.1.createdAt = day) := by
    unfold dailyRevenue
    rw [List.map_map]
    exact List.map_congr_left fun day _ => F.value_ofRat _
  rw [hvalues, ← Multiset.sum_coe, ← Multiset.map_coe, Multiset.sort_eq]
  exact sum_all_groups (fun x => dateOf x.1.createdAt) (fun x => x.1.amount) rows

theorem dates_dailyRevenue (dateOf : ℤ → ℤ) (rows : Multiset (Payment × Booking)) :
    ((dailyRevenue F.toPyFloat dateOf rows).map DayRevenue.date).Pairwise (· < ·) := by
  have hdates : (dailyRevenue F.toPyFloat dateOf rows).map DayRevenue.date =
      (rows.map fun x => dateOf x.1.createdAt).dedup.sort (· ≤ ·) := by
    unfold dailyRevenue
    rw [List.map_map]
    exact List.map_id _
  rw [hdates]
  have hsorted := Multiset.pairwise_sort (rows.map fun x => dateOf x.1.createdAt).dedup (· ≤ ·)
  have hdistinct : ((rows.map fun x => dateOf x.1.createdAt).dedup.sort (· ≤ ·)).Nodup := by
    rw [← Multiset.coe_nodup, Multiset.sort_eq]
    exact Multiset.nodup_dedup _
  exact (hsorted.and hdistinct).imp fun {a b} hab => lt_of_le_of_ne hab.1 hab.2

/-- Every booking has its hotel, so that no row is lost to the join. -/
theorem sum_byHotel (hs : s.PaymentsTraced) {rows : Multiset (Payment × Booking)}
    (hrows : ∀ x ∈ rows, x.2 ∈ s.bookings.rows) :
    ((byHotel s F.toPyFloat rows).map fun h => F.value h.revenue).sum = paidTotal rows := by
  have hfound : ∀ x ∈ rows, ∃ h, s.hotels.get x.2.hotelId = some h := fun x hx =>
    Option.isSome_iff_exists.mp (hs.hotels x.2 (hrows x hx))
  have hjoined := sumOrZero_joinOn_fst (fun x : Payment × Booking => x.1.amount) hfound
  have hgroups := sum_all_groups (fun x : (Payment × Booking) × Hotel => (x.2.id, x.2.name))
    (fun x => x.1.1.amount) (joinOn (fun x => s.hotels.get x.2.hotelId) rows)
  unfold byHotel paidTotal
  rw [← hjoined, ← hgroups, List.map_map, ← Multiset.sum_coe, ← Multiset.map_coe, coe_sortDesc]
  unfold groupBy
  rw [Multiset.map_map]
  congr 1
  exact Multiset.map_congr rfl fun k _ => F.value_ofRat _

theorem windowsTile (hs : s.PaymentsTraced) : WindowsTile s clock days user := by
  constructor
  · intro x hx hprevious
    have hstart := (mem_paidBookings.mp hx).2.2.2.1
    have hbefore := (mem_paidBookings.mp hprevious).2.2.2.1.2
    exact absurd hbefore (not_lt.mpr hstart)
  · intro p hp hstatus hsince
    obtain ⟨b, hb⟩ := Option.isSome_iff_exists.mp (hs.bookings p hp)
    refine ⟨b, hb, fun hscope => ?_⟩
    rcases lt_or_ge p.createdAt (clock.midnight (reportStart clock days)) with hbefore | hstart
    · exact Or.inr (mem_paidBookings.mpr ⟨hp, hb, hstatus, ⟨hsince, hbefore⟩, hscope⟩)
    · exact Or.inl (mem_paidBookings.mpr ⟨hp, hb, hstatus, hstart, hscope⟩)

end

/-- The three revenues of a report agree, its days are in order, and its windows tile. -/
theorem revenue_figures_agree (F : ExactFloat) (s : Store) (hs : s.PaymentsTraced)
    (clock : ReportClock) (days : ReportDays) (user : User)
    (hstaff : requireStaffOrAdmin user = .ok ()) :
    (∃ r, revenueReport s F.toPyFloat clock days user = .ok r ∧ r.Agrees s clock days user F) ∧
      WindowsTile s clock days user := by
  refine ⟨?_, windowsTile hs⟩
  have hrows : ∀ x ∈ currentPayments s clock days user, x.2 ∈ s.bookings.rows := fun x hx =>
    ((Table.get_eq_some _).mp (mem_paidBookings.mp hx).2.1).1
  have hreport : ∃ r, revenueReport s F.toPyFloat clock days user = .ok r ∧
      r.totalRevenue = F.ofRat (paidTotal (currentPayments s clock days user)) ∧
      r.previousRevenue = F.ofRat (paidTotal (previousPayments s clock days user)) ∧
      r.dailyRevenue =
        dailyRevenue F.toPyFloat clock.dateOf (currentPayments s clock days user) ∧
      r.byHotel = byHotel s F.toPyFloat (currentPayments s clock days user) := by
    unfold revenueReport
    rw [hstaff]
    exact ⟨_, rfl, rfl, rfl, rfl, rfl⟩
  obtain ⟨r, hr, htotal, hprevious, hdaily, hhotels⟩ := hreport
  refine ⟨r, hr, ?_, ?_, ?_, ?_, ?_⟩
  · rw [htotal, F.value_ofRat]
  · rw [hprevious, F.value_ofRat]
  · rw [hdaily, htotal, F.value_ofRat, sum_dailyRevenue]
  · rw [hhotels, htotal, F.value_ofRat, sum_byHotel F hs hrows]
  · rw [hdaily]
    exact dates_dailyRevenue F _ _

/-- Two payments of one booking, days apart. -/
def revenueStore : Store :=
  { bookedStore with
    payments := (Table.empty.insert ⟨0, 1, 1, 120, "USD", "card", .succeeded, none, 1000000⟩).insert
      ⟨0, 1, 1, 80, "USD", "card", .succeeded, none, 1700000⟩ }

theorem revenue_figures_agree_sample :
    (∃ r, revenueReport revenueStore sampleFloat sampleClock sampleDays sampleAdmin = .ok r ∧
      r.Agrees revenueStore sampleClock sampleDays sampleAdmin exactReports) ∧
      WindowsTile revenueStore sampleClock sampleDays sampleAdmin := by
  have hs : revenueStore.PaymentsTraced := ⟨by decide +kernel, by decide +kernel⟩
  exact revenue_figures_agree exactReports revenueStore hs sampleClock sampleDays sampleAdmin
    (by decide)

end HotelMs
