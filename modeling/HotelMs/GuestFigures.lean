import HotelMs.Exports

/-!
# Guests that are counted (`guest_analytics`, the guests export)

New and returning guests are counted by two queries that are added up; a
spender's bookings are counted over the payments they are joined with.
-/

namespace HotelMs

open Tables Queries

/-! ### New and returning guests -/

def bookers (rows : Multiset Booking) : Finset ℤ := (rows.map Booking.userId).toFinset

section

variable (s : Store) (clock : ReportClock) (days : ReportDays)

/-- Midnight before the first day of the window. -/
def windowStart : ℤ := clock.midnight (reportStart clock days)

def bookersSince : Finset ℤ :=
  bookers ((bag s.bookings).filter fun b => windowStart clock days ≤ b.createdAt)

def bookersBefore : Finset ℤ :=
  bookers ((bag s.bookings).filter fun b => b.createdAt < windowStart clock days)

/-- The users whose first booking was created in the window. -/
def firstTimers : Finset ℤ := bookersSince s clock days \ bookersBefore s clock days

/-- The users with a booking in the window and an earlier one. -/
def returners : Finset ℤ := bookersSince s clock days ∩ bookersBefore s clock days

/-- The guests are counted as new or as returning, and each once. -/
structure GuestReport.Partitions {F : PyFloat} (r : GuestReport F) : Prop where
  new : r.newGuests = (firstTimers s clock days).card
  returning : r.returningGuests = (returners s clock days).card
  apart : r.newGuests + r.returningGuests = (firstTimers s clock days ∪ returners s clock days).card
  total : r.totalGuests = (firstTimers s clock days ∪ returners s clock days).card

end

section

variable {s : Store} {clock : ReportClock} {days : ReportDays} {user : User}

theorem bookersBefore_eq_empty_iff : bookersBefore s clock days = ∅ ↔
    ∀ b ∈ s.bookings.rows, windowStart clock days ≤ b.createdAt := by
  unfold bookersBefore bookers
  rw [Multiset.toFinset_eq_empty, Multiset.map_eq_zero, Multiset.filter_eq_nil]
  exact forall₂_congr fun b _ => not_lt

theorem guestAnalytics_counts (F : PyFloat) (Q : QueryApi) (s : Store) (clock : ReportClock)
    (days : ReportDays) (hscope : getOptionalHotel user = none)
    (hstaff : requireStaffOrAdmin user = .ok ()) :
    ∃ r, guestAnalytics s F Q clock days user = .ok r ∧
      r.newGuests = (bookersSince s clock days).card ∧
      r.returningGuests = (bookersBefore s clock days).card ∧
      r.totalGuests = (bookersSince s clock days).card + (bookersBefore s clock days).card := by
  unfold guestAnalytics
  rw [hstaff]
  simp only [hscope, topGuests_unscoped]
  exact ⟨_, rfl, rfl, rfl, rfl⟩

end

theorem guests_partition_iff (F : PyFloat) (Q : QueryApi) (s : Store) (clock : ReportClock)
    (days : ReportDays) (user : User) (hscope : getOptionalHotel user = none)
    (hstaff : requireStaffOrAdmin user = .ok ()) :
    (∃ r, guestAnalytics s F Q clock days user = .ok r ∧ r.Partitions s clock days) ↔
      ∀ b ∈ s.bookings.rows, windowStart clock days ≤ b.createdAt := by
  obtain ⟨r, hr, hnew, hreturning, htotal⟩ :=
    guestAnalytics_counts F Q s clock days hscope hstaff
  have hunion : firstTimers s clock days ∪ returners s clock days = bookersSince s clock days :=
    Finset.sdiff_union_inter _ _
  rw [← bookersBefore_eq_empty_iff]
  constructor
  · intro h
    obtain ⟨r', hr', hcounts⟩ := h
    obtain rfl := Except.ok.inj (hr.symm.trans hr')
    have hall := hcounts.total
    rw [hunion, htotal] at hall
    exact Finset.card_eq_zero.mp (by omega)
  · intro hnone
    have hfirst : firstTimers s clock days = bookersSince s clock days := by
      unfold firstTimers
      rw [hnone, Finset.sdiff_empty]
    have hreturners : returners s clock days = ∅ := by
      unfold returners
      rw [hnone, Finset.inter_empty]
    rw [hnone, Finset.card_empty] at hreturning htotal
    refine ⟨r, hr, ?_, ?_, ?_, ?_⟩
    · rw [hnew, hfirst]
    · rw [hreturning, hreturners, Finset.card_empty]
    · rw [hunion, hnew, hreturning, Nat.add_zero]
    · rw [hunion, htotal, Nat.add_zero]

theorem guests_partition_recent : ∃ r,
    guestAnalytics bookedStore sampleFloat sampleQueryApi sampleClock sampleDays
      sampleSuperAdmin = .ok r ∧ r.Partitions bookedStore sampleClock sampleDays :=
  (guests_partition_iff sampleFloat sampleQueryApi bookedStore sampleClock sampleDays
    sampleSuperAdmin (by decide) (by decide)).mpr (by decide +kernel)

/-- Guest 1 has booked before the window and in it. -/
def returningStore : Store :=
  { sampleStore with
    bookings := (Table.empty.insert
      ⟨0, 1, 1, 1, -20, -18, 1, 0, none, 200, .completed, -2000000⟩).insert
      ⟨0, 1, 1, 1, 10, 12, 1, 0, none, 200, .confirmed, 0⟩ }

theorem returning_guest_is_new : ¬∃ r,
    guestAnalytics returningStore sampleFloat sampleQueryApi sampleClock sampleDays
      sampleSuperAdmin = .ok r ∧ r.Partitions returningStore sampleClock sampleDays := by
  intro h
  obtain ⟨r, hr, hcounts⟩ := h
  have hscope : getOptionalHotel sampleSuperAdmin = none := by decide
  obtain ⟨r', hr', hnew, _, _⟩ := guestAnalytics_counts sampleFloat sampleQueryApi
    returningStore sampleClock sampleDays hscope (by decide)
  obtain rfl := Except.ok.inj (hr.symm.trans hr')
  have hone := hnew.symm.trans hcounts.new
  revert hone
  decide +kernel

/-! ### Spenders -/

def InScope (hotelId : Option ℤ) (b : Booking) : Prop := ∀ h ∈ hotelId, b.hotelId = h

instance (hotelId : Option ℤ) (b : Booking) : Decidable (InScope hotelId b) :=
  inferInstanceAs (Decidable (∀ h ∈ hotelId, _))

section

variable (s : Store) (hotelId : Option ℤ) (userId : ℤ)

def paymentsOn (b : Booking) : Multiset Payment :=
  (bag s.payments).filter fun p => p.bookingId = b.id ∧ p.status = .succeeded

/-- The bookings of a guest with a succeeded payment. -/
def paidBookingsOf : Multiset Booking :=
  (bag s.bookings).filter fun b => paymentsOn s b ≠ 0 ∧ b.userId = userId ∧ InScope hotelId b

/-- The succeeded payments of a guest, each once. -/
def paymentsOf : Multiset Payment :=
  (bag s.payments).filter fun p => p.status = .succeeded ∧
    ∃ b ∈ s.bookings.get p.bookingId, b.userId = userId ∧ InScope hotelId b

def PaidOnce : Prop :=
  ∀ b ∈ s.bookings.rows, b.userId = userId → InScope hotelId b → (paymentsOn s b).card ≤ 1

/-- Bookings and money are counted without the fan-out of the join. -/
def CountedOnce {F : PyFloat} (g : TopGuest F) : Prop :=
  g.bookingCount = (paidBookingsOf s hotelId g.userId).card ∧
    g.totalSpent = F.ofRat (sumOrZero Payment.amount (paymentsOf s hotelId g.userId))

/-- The joined rows of a guest. -/
def joinedPaymentsOf : Multiset (Payment × Booking) :=
  (joinOn (fun p => s.bookings.get p.bookingId) (bag s.payments)).filter fun x =>
    (x.2.userId = userId ∧ InScope hotelId x.2) ∧ x.1.status = .succeeded

variable {s hotelId userId}

theorem map_fst_joinedPaymentsOf :
    (joinedPaymentsOf s hotelId userId).map Prod.fst = paymentsOf s hotelId userId := by
  refine map_fst_filter_joinOn fun p _ => ?_
  constructor
  · intro h
    obtain ⟨hstatus, b, hb, hguest⟩ := h
    exact ⟨b, hb, hguest, hstatus⟩
  · intro h
    obtain ⟨b, hb, hguest, hstatus⟩ := h
    exact ⟨hstatus, b, hb, hguest⟩

theorem card_joinedPaymentsOf :
    (joinedPaymentsOf s hotelId userId).card =
      sumOrZero (fun b => (paymentsOn s b).card)
        ((bag s.bookings).filter fun b => b.userId = userId ∧ InScope hotelId b) := by
  have hsum := sumOrZero_joinOn s.bookings Payment.bookingId (fun _ => 1)
    (fun p => p.status = .succeeded) (fun b => b.userId = userId ∧ InScope hotelId b)
    (bag s.payments)
  simp only [sumOrZero_one] at hsum
  exact hsum

theorem card_paidBookingsOf :
    (paidBookingsOf s hotelId userId).card =
      sumOrZero (fun b => if paymentsOn s b ≠ 0 then 1 else 0)
        ((bag s.bookings).filter fun b => b.userId = userId ∧ InScope hotelId b) := by
  unfold paidBookingsOf
  rw [← Multiset.filter_filter, sumOrZero_ite]

/-- The join counts a booking once for each of its payments. -/
theorem card_joinedPaymentsOf_eq_iff :
    (joinedPaymentsOf s hotelId userId).card = (paidBookingsOf s hotelId userId).card ↔
      PaidOnce s hotelId userId := by
  have hle : ∀ b ∈ (bag s.bookings).filter fun b => b.userId = userId ∧ InScope hotelId b,
      (if paymentsOn s b ≠ 0 then 1 else 0) ≤ (paymentsOn s b).card := by
    intro b _
    split
    next h => exact Multiset.card_pos.mpr h
    next h => exact Nat.zero_le _
  rw [card_joinedPaymentsOf, card_paidBookingsOf, sumOrZero_eq_iff hle]
  simp only [Multiset.mem_filter, mem_bag]
  constructor
  · intro h b hb huser hscope
    have hcard := h b ⟨hb, huser, hscope⟩
    split at hcard <;> omega
  · intro h b hb
    have hcard := h b hb.1 hb.2.1 hb.2.2
    split
    next hsome =>
      have hpos := Multiset.card_pos.mpr hsome
      omega
    next hnone => rw [not_not.mp hnone, Multiset.card_zero]

theorem ofHotel_eq_filter {α : Type} (hotelOf : α → ℤ) (q : Multiset α) :
    ofHotel hotelId hotelOf q = q.filter fun r => ∀ h ∈ hotelId, hotelOf r = h := by
  cases hotelId with
  | none => exact (Multiset.filter_eq_self.mpr fun r _ h hh => by cases hh).symm
  | some h =>
    refine Multiset.filter_congr fun r _ => ?_
    exact ⟨fun heq k hk => heq.trans (Option.some.inj hk), fun hall => hall h rfl⟩

/-- A guest that is listed is a group of joined rows. -/
theorem of_mem_spenders {F : PyFloat} {g : TopGuest F}
    (hg : g ∈ spenders F (ofHotel hotelId (fun x => x.1.2.hotelId) (guestPayments s))) :
    ∃ group : Multiset ((Payment × Booking) × User),
      group.map Prod.fst = joinedPaymentsOf s hotelId g.userId ∧
      g.bookingCount = group.card ∧
      g.totalSpent = F.ofRat (sumOrZero (fun x => x.1.1.amount) group) := by
  rw [ofHotel_eq_filter] at hg
  unfold spenders at hg
  obtain ⟨x, hx, rfl⟩ := List.mem_map.mp hg
  rw [← Multiset.mem_coe, coe_sortDesc] at hx
  obtain ⟨k, hk, rfl⟩ := Multiset.mem_map.mp hx
  obtain ⟨row, hrow, rfl⟩ := Multiset.mem_map.mp (Multiset.mem_dedup.mp hk)
  refine ⟨((guestPayments s).filter fun x => ∀ h ∈ hotelId, x.1.2.hotelId = h).filter fun x =>
    (x.2.id, x.2.fullName, x.2.email) = (row.2.id, row.2.fullName, row.2.email), ?_, rfl, rfl⟩
  have hu : s.users.get row.1.2.userId = some row.2 :=
    (mem_joinOn.mp (Multiset.mem_filter.mp (Multiset.mem_filter.mp hrow).1).1).2
  have hid : row.1.2.userId = row.2.id := ((Table.get_eq_some _).mp hu).2.symm
  unfold guestPayments joinedPaymentsOf
  rw [Multiset.filter_filter, Multiset.filter_filter]
  refine map_fst_filter_joinOn fun y _ => ?_
  dsimp only
  constructor
  · intro h
    obtain ⟨⟨huser, hscope⟩, hstatus⟩ := h
    refine ⟨row.2, ?_, ⟨rfl, hscope⟩, hstatus⟩
    rw [← hu, huser, hid]
    rfl
  · intro h
    obtain ⟨v, hv, ⟨hkey, hscope⟩, hstatus⟩ := h
    refine ⟨⟨?_, hscope⟩, hstatus⟩
    have hvid : v.id = y.2.userId := ((Table.get_eq_some _).mp hv).2
    exact hvid.symm.trans (congrArg Prod.fst hkey)

/-- The money is counted once in any case. -/
theorem countedOnce_iff {F : PyFloat} {g : TopGuest F}
    (hg : g ∈ spenders F (ofHotel hotelId (fun x => x.1.2.hotelId) (guestPayments s))) :
    CountedOnce s hotelId g ↔ PaidOnce s hotelId g.userId := by
  obtain ⟨group, hmap, hcount, hspent⟩ := of_mem_spenders hg
  have hcard : group.card = (joinedPaymentsOf s hotelId g.userId).card := by
    rw [← hmap, Multiset.card_map]
  have hsum : sumOrZero (fun x => x.1.1.amount) group =
      sumOrZero Payment.amount (paymentsOf s hotelId g.userId) := by
    unfold sumOrZero
    rw [← map_fst_joinedPaymentsOf, ← hmap, Multiset.map_map, Multiset.map_map]
    rfl
  rw [← card_joinedPaymentsOf_eq_iff, ← hcard, ← hcount]
  refine and_iff_left ?_
  rw [hspent, hsum]

end

/-- A guest of the export, or at the top of the report, is counted right exactly if
none of the guest's bookings in the caller's scope has been paid for twice. -/
theorem no_fan_out_iff (F : PyFloat) (Q : QueryApi) (s : Store) (clock : ReportClock)
    (days : ReportDays) (user : User) (g : TopGuest F)
    (hlisted : (∃ guests, exportRows F s clock days user "guests" = .ok (.guests guests) ∧
        g ∈ guests) ∨
      ∃ r, guestAnalytics s F Q clock days user = .ok r ∧ g ∈ r.topGuests) :
    CountedOnce s (getOptionalHotel user) g ↔ PaidOnce s (getOptionalHotel user) g.userId := by
  rcases hlisted with hexport | hreport
  · obtain ⟨guests, hrows, hg⟩ := hexport
    unfold exportRows at hrows
    cases hstaff : requireStaffOrAdmin user with
    | error e =>
      rw [hstaff] at hrows
      cases hrows
    | ok _ =>
      rw [hstaff] at hrows
      cases hrows
      exact countedOnce_iff hg
  · obtain ⟨r, hr, hg⟩ := hreport
    cases hscope : getOptionalHotel user with
    | some h => exact absurd hr (guestAnalytics_scoped s F Q clock days hscope r)
    | none =>
      unfold guestAnalytics at hr
      simp only [hscope, topGuests_unscoped] at hr
      cases hstaff : requireStaffOrAdmin user with
      | error e =>
        rw [hstaff] at hr
        cases hr
      | ok _ =>
        rw [hstaff] at hr
        cases hr
        have hall : g ∈ spenders F (ofHotel none (fun x => x.1.2.hotelId) (guestPayments s)) :=
          List.mem_of_mem_take hg
        exact countedOnce_iff hall

theorem no_fan_out_paid_once : ∃ g ∈ exportGuests sampleFloat arrivalStore (some 1),
    CountedOnce arrivalStore (some 1) g := by
  have hone : (exportGuests sampleFloat arrivalStore (some 1)).length = 1 := by decide +kernel
  obtain ⟨g, hg⟩ := List.exists_mem_of_length_pos (hone ▸ Nat.one_pos)
  refine ⟨g, hg, (no_fan_out_iff sampleFloat sampleQueryApi arrivalStore sampleClock sampleDays
    sampleAdmin g (Or.inl ⟨_, rfl, hg⟩)).mpr fun b _ _ _ => ?_⟩
  exact Multiset.card_le_card (Multiset.filter_le _ (bag arrivalStore.payments))

/-- One booking, paid in two parts, counts as two. -/
theorem paid_twice_counts_twice :
    ¬∀ g ∈ exportGuests sampleFloat revenueStore (some 1), CountedOnce revenueStore (some 1) g := by
  intro h
  have htwo : ∀ g ∈ exportGuests sampleFloat revenueStore (some 1), g.bookingCount = 2 ∧
      (paidBookingsOf revenueStore (some 1) g.userId).card = 1 := by decide +kernel
  have hone : (exportGuests sampleFloat revenueStore (some 1)).length = 1 := by decide +kernel
  obtain ⟨g, hg⟩ := List.exists_mem_of_length_pos (hone ▸ Nat.one_pos)
  have hcount := (h g hg).1
  rw [(htwo g hg).1, (htwo g hg).2] at hcount
  cases hcount

end HotelMs
