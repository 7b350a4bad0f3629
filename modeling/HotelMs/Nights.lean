import HotelMs.Api
import HotelMs.Lib.Overrides
import Mathlib.Data.Prod.Lex

/-!
# Night by night

What `get_available_rooms` and `calculate_booking_price` say about the single
nights of a stay.
-/

namespace HotelMs

open Tables Overrides

/-! ### Free nights -/

theorem not_overlapping_iff {b : Booking} {hotelId checkIn checkOut : ℤ}
    (hstay : checkIn < checkOut)
    (hdates : b.hotelId = hotelId → b.Live → b.checkIn < b.checkOut) :
    b.overlapping hotelId checkIn checkOut = false ↔
      ¬(b.hotelId = hotelId ∧ b.Live ∧
        ∃ night ∈ b.stay, night ∈ Set.Ico checkIn checkOut) := by
  rw [← Bool.not_eq_true, not_iff_not]
  constructor
  · intro h
    obtain ⟨hhotel, hlive, _⟩ := overlapping_eq_true.mp h
    exact ⟨hhotel, hlive, share_of_overlapping h (hdates hhotel hlive) hstay⟩
  · intro h
    obtain ⟨hhotel, hlive, night, hbooked, hnight⟩ := h
    exact overlapping_of_share hhotel hlive hbooked hnight

theorem not_overlapping_of_adjacent {b : Booking} {checkIn checkOut : ℤ} (hotelId : ℤ)
    (h : b.checkOut = checkIn ∨ b.checkIn = checkOut) :
    b.overlapping hotelId checkIn checkOut = false := by
  rw [← Bool.not_eq_true, overlapping_eq_true]
  intro hover
  omega

theorem getAvailableRooms_congr {s s' : Store} {hotelId checkIn checkOut : ℤ}
    (hrooms : s'.rooms = s.rooms) (hblackouts : s'.blackoutDates = s.blackoutDates)
    (hbookings : ∀ r : Room,
      s'.bookings.any (fun b => b.overlapping hotelId checkIn checkOut && b.roomId = r.id) =
        s.bookings.any (fun b => b.overlapping hotelId checkIn checkOut && b.roomId = r.id)) :
    getAvailableRooms s' hotelId checkIn checkOut =
      getAvailableRooms s hotelId checkIn checkOut := by
  unfold getAvailableRooms
  simp only [hrooms, hblackouts, hbookings]

/-- A stay that ends where another begins is as free without the other. -/
theorem getAvailableRooms_without_adjacent {s : Store} {b : Booking} {hotelId checkIn checkOut : ℤ}
    (hb : b ∈ s.bookings.rows) (h : b.checkOut = checkIn ∨ b.checkIn = checkOut) :
    getAvailableRooms (s.without b.id) hotelId checkIn checkOut =
      getAvailableRooms s hotelId checkIn checkOut := by
  refine getAvailableRooms_congr rfl rfl fun r => ?_
  rw [Bool.eq_iff_iff, Table.any_eq_true, Table.any_eq_true]
  constructor
  · intro hany
    obtain ⟨b', hb', hover⟩ := hany
    exact ⟨b', ((Table.mem_deleteWhere _).mp hb').1, hover⟩
  · intro hany
    obtain ⟨b', hb', hover⟩ := hany
    have hne : b'.id ≠ b.id := by
      intro hid
      rw [s.bookings.eq_of_key hb' hb hid, not_overlapping_of_adjacent hotelId h] at hover
      cases hover
    exact ⟨b', (Table.mem_deleteWhere _).mpr ⟨hb', by simpa using hne⟩, hover⟩

/-- With no bookings, the rooms of the hotel that the query leaves out are the
inactive ones and those that `check_blackout_dates` reports. -/
theorem mem_getAvailableRooms_unbooked {s : Store} {hotelId checkIn checkOut : ℤ} {r : Room} :
    r ∈ getAvailableRooms { s with bookings := Table.empty } hotelId checkIn checkOut ↔
      r ∈ s.rooms.rows ∧ r.hotelId = hotelId ∧ r.isActive = true ∧
        checkBlackoutDates s hotelId r.id checkIn checkOut = false := by
  rw [mem_getAvailableRooms]
  constructor
  · intro h
    exact ⟨h.1, h.2.1, h.2.2.1, h.2.2.2.1⟩
  · intro h
    refine ⟨h.1, h.2.1, h.2.2.1, h.2.2.2, fun b hb => ?_⟩
    cases hb

/-- A room is available when it is an active one of the hotel, no blackout date
holds it, and no live booking has a night of the stay. Bookings that end or
begin where the stay begins or ends make no difference, and the two ways to ask
for blackout dates agree. -/
theorem available_iff_nights_free (s : Store) (hotelId checkIn checkOut : ℤ)
    (hstay : checkIn < checkOut) (r : Room)
    (hdates : ∀ b ∈ s.bookings.rows, b.hotelId = hotelId → b.roomId = r.id → b.Live →
      b.checkIn < b.checkOut) :
    (r ∈ getAvailableRooms s hotelId checkIn checkOut ↔
      r ∈ s.rooms.rows ∧ r.hotelId = hotelId ∧ r.isActive = true ∧
        checkBlackoutDates s hotelId r.id checkIn checkOut = false ∧
        ¬∃ b ∈ s.bookings.rows, b.hotelId = hotelId ∧ b.roomId = r.id ∧ b.status ≠ .cancelled ∧
          ∃ night, checkIn ≤ night ∧ night < checkOut ∧
            b.checkIn ≤ night ∧ night < b.checkOut) ∧
    (∀ b ∈ s.bookings.rows, b.checkOut = checkIn ∨ b.checkIn = checkOut →
      getAvailableRooms (s.without b.id) hotelId checkIn checkOut =
        getAvailableRooms s hotelId checkIn checkOut) ∧
    (r ∈ getAvailableRooms { s with bookings := Table.empty } hotelId checkIn checkOut ↔
      r ∈ s.rooms.rows ∧ r.hotelId = hotelId ∧ r.isActive = true ∧
        checkBlackoutDates s hotelId r.id checkIn checkOut = false) := by
  refine ⟨?_, fun b hb h => getAvailableRooms_without_adjacent hb h,
    mem_getAvailableRooms_unbooked⟩
  rw [mem_getAvailableRooms]
  refine and_congr_right fun _ => and_congr_right fun _ => and_congr_right fun _ =>
    and_congr_right fun _ => ?_
  constructor
  · intro hfree hshare
    obtain ⟨b, hb, hhotel, hroom, hlive, night, h₁, h₂, h₃, h₄⟩ := hshare
    have hover : b.overlapping hotelId checkIn checkOut = true :=
      overlapping_of_share hhotel hlive ⟨h₃, h₄⟩ ⟨h₁, h₂⟩
    rw [hfree b hb hroom] at hover
    cases hover
  · intro hnone b hb hroom
    rw [not_overlapping_iff hstay fun hhotel hlive => hdates b hb hhotel hroom hlive]
    intro hshare
    obtain ⟨hhotel, hlive, night, hbooked, hnight⟩ := hshare
    exact hnone ⟨b, hb, hhotel, hroom, hlive, night, hnight.1, hnight.2, hbooked.1, hbooked.2⟩

def sampleRoom : Room := ⟨1, 1, 1, none, none, some 100, none, true⟩

theorem available_iff_nights_free_booked :
    sampleRoom ∈ getAvailableRooms bookedStore 1 12 14 ∧
    sampleRoom ∉ getAvailableRooms bookedStore 1 11 13 := by
  have hdates : ∀ b ∈ bookedStore.bookings.rows, b.checkIn < b.checkOut := by decide +kernel
  constructor
  · refine ((available_iff_nights_free bookedStore 1 12 14 (by decide) sampleRoom
      fun b hb _ _ _ => hdates b hb).1).mpr ?_
    refine ⟨by decide +kernel, rfl, rfl, by decide +kernel, ?_⟩
    intro h
    obtain ⟨b, hb, _, _, _, night, h₁, _, _, h₄⟩ := h
    have hends : ∀ b ∈ bookedStore.bookings.rows, b.checkOut = 12 := by decide +kernel
    have hend := hends b hb
    omega
  · intro h
    have hnone := ((available_iff_nights_free bookedStore 1 11 13 (by decide) sampleRoom
      fun b hb _ _ _ => hdates b hb).1.mp h).2.2.2.2
    have hbooked : ∃ b ∈ bookedStore.bookings.rows, b.hotelId = 1 ∧ b.roomId = 1 ∧
        b.status ≠ .cancelled ∧ b.checkIn ≤ 11 ∧ 11 < b.checkOut := by decide +kernel
    obtain ⟨b, hb, hhotel, hroom, hlive, hin, hout⟩ := hbooked
    exact hnone ⟨b, hb, hhotel, hroom, hlive, 11, by decide, by decide, hin, hout⟩

/-! ### Nightly prices -/

def PricingRule.AppliesTo (room : Room) (night : ℤ) (r : PricingRule) : Prop :=
  r.hotelId = room.hotelId ∧ r.roomTypeId = room.roomTypeId ∧ r.startDate ≤ night ∧
    night ≤ r.endDate

def PricingRule.rank (r : PricingRule) : Lex (ℤ × ℤ) := toLex (r.priority, r.id)

/-- The fixed price if there is one, else the multiplied base price. -/
def PricingRule.rate (base : ℚ) (r : PricingRule) : ℚ :=
  match r.price, r.multiplier with
  | some price, _ => price
  | none, some multiplier => base * multiplier
  | none, none => base

/-- What the rule table says of one night: the rate of the applying rule that is
greatest by priority, then id, or the base price. -/
def NightPrice (s : Store) (room : Room) (night : ℤ) : ℚ → Prop :=
  Value s.pricingRules.rows PricingRule.rank (PricingRule.AppliesTo room night)
    (PricingRule.rate (room.basePrice.getD 0)) (room.basePrice.getD 0)

theorem before_iff (a b : PricingRule) : a.before b ↔ b.rank ≤ a.rank := by
  unfold PricingRule.before PricingRule.rank
  rw [Prod.Lex.toLex_le_toLex]

theorem rank_injective {t : Table PricingRule} :
    ∀ a ∈ t.rows, ∀ b ∈ t.rows, a.rank = b.rank → a = b := by
  intro a ha b hb h
  have hpair := toLex.injective h
  exact t.eq_of_key ha hb (Prod.mk.inj hpair).2

theorem nightPrice_dailyPrice (s : Store) (room : Room) (night : ℤ) :
    NightPrice s room night (dailyPrice s room night) := by
  have hsorted := value_of_sorted before_iff (fun r : PricingRule =>
    r.hotelId = room.hotelId && r.roomTypeId = room.roomTypeId && r.startDate ≤ night &&
      night ≤ r.endDate) s.pricingRules.rows (PricingRule.rate (room.basePrice.getD 0))
    (room.basePrice.getD 0)
  have happlies : (fun r : PricingRule => (r.hotelId = room.hotelId &&
      r.roomTypeId = room.roomTypeId && r.startDate ≤ night && night ≤ r.endDate) = true) =
      PricingRule.AppliesTo room night := by
    funext r
    simp only [PricingRule.AppliesTo, Bool.and_eq_true, decide_eq_true_eq, and_assoc]
  have hdaily : dailyPrice s room night = ((getRulesForRoomType s room.hotelId room.roomTypeId
      night night).head?.elim (room.basePrice.getD 0)
        (PricingRule.rate (room.basePrice.getD 0))) := by
    unfold dailyPrice
    cases getRulesForRoomType s room.hotelId room.roomTypeId night night with
    | nil => rfl
    | cons r rest => rfl
  rw [hdaily]
  rw [happlies] at hsorted
  exact hsorted

theorem nightPrice_unique {s : Store} {room : Room} {night : ℤ} {p p' : ℚ}
    (h : NightPrice s room night p) (h' : NightPrice s room night p') : p = p' :=
  Value.unique rank_injective h h'

theorem nightPrice_iff {s : Store} {room : Room} {night : ℤ} {p : ℚ} :
    NightPrice s room night p ↔ dailyPrice s room night = p := by
  constructor
  · exact nightPrice_unique (nightPrice_dailyPrice s room night)
  · intro h
    rw [← h]
    exact nightPrice_dailyPrice s room night

theorem priceLoop_eq_sum (s : Store) (room : Room) (n : ℕ) (day : ℤ) (total : ℚ) :
    priceLoop s room n day total =
      total + ∑ night ∈ Finset.Ico day (day + n), dailyPrice s room night := by
  induction n generalizing day total with
  | zero => simp [priceLoop]
  | succ n ih =>
    unfold priceLoop
    have hfirst := sum_Ico_first (dailyPrice s room) (a := day) (b := day + (n + 1 : ℕ))
      (by omega)
    have hend : day + 1 + (n : ℤ) = day + (n + 1 : ℕ) := by
      push_cast
      ring
    rw [ih, hfirst, hend, add_assoc]

theorem calculateBookingPrice_eq_sum (s : Store) (room : Room) (checkIn checkOut : ℤ) :
    calculateBookingPrice s room checkIn checkOut =
      ∑ night ∈ Finset.Ico checkIn checkOut, dailyPrice s room night := by
  unfold calculateBookingPrice
  rw [priceLoop_eq_sum, zero_add]
  rcases le_total checkIn checkOut with hle | hle
  · rw [Int.toNat_of_nonneg (by omega), add_sub_cancel]
  · have hempty : ∀ b, b ≤ checkIn → Finset.Ico checkIn b = ∅ := by
      intro b hb
      exact Finset.Ico_eq_empty (not_lt.mpr hb)
    rw [hempty _ hle, hempty _ (by omega)]

theorem dailyPrice_insert {s : Store} {room : Room} {rule : PricingRule} {night : ℤ}
    (h : night ∉ Finset.Icc rule.startDate rule.endDate) :
    dailyPrice { s with pricingRules := s.pricingRules.insert rule } room night =
      dailyPrice s room night := by
  have hnew : ¬PricingRule.AppliesTo room night (Keyed.stamp s.pricingRules.next rule) := by
    intro happ
    exact h (Finset.mem_Icc.mpr ⟨happ.2.2.1, happ.2.2.2⟩)
  exact nightPrice_iff.mp (value_append hnew (nightPrice_dailyPrice s room night))

/-- The price of a stay is the sum of what the rule table says of its nights. So
stays that follow each other add up, and a new rule changes no price of a stay
without a night in its date range. -/
theorem price_is_sum_of_nights (s : Store) (room : Room) :
    (∀ night, ∃! p, NightPrice s room night p) ∧
    (∀ price : ℤ → ℚ, (∀ night, NightPrice s room night (price night)) →
      ∀ checkIn checkOut, calculateBookingPrice s room checkIn checkOut =
        ∑ night ∈ Finset.Ico checkIn checkOut, price night) ∧
    (∀ a b c, a ≤ b → b ≤ c → calculateBookingPrice s room a c =
      calculateBookingPrice s room a b + calculateBookingPrice s room b c) ∧
    ∀ (rule : PricingRule) (a b : ℤ),
      (∀ night ∈ Finset.Ico a b, night ∉ Finset.Icc rule.startDate rule.endDate) →
      calculateBookingPrice { s with pricingRules := s.pricingRules.insert rule } room a b =
        calculateBookingPrice s room a b := by
  refine ⟨fun night => ?_, fun price hprice a b => ?_, fun a b c hab hbc => ?_,
    fun rule a b hout => ?_⟩
  · exact ⟨dailyPrice s room night, nightPrice_dailyPrice s room night,
      fun p hp => (nightPrice_iff.mp hp).symm⟩
  · rw [calculateBookingPrice_eq_sum]
    exact Finset.sum_congr rfl fun night _ => nightPrice_iff.mp (hprice night)
  · simp only [calculateBookingPrice_eq_sum]
    exact sum_Ico_split _ hab hbc
  · simp only [calculateBookingPrice_eq_sum]
    exact Finset.sum_congr rfl fun night hnight => dailyPrice_insert (hout night hnight)

def weekendRule (id priority : ℤ) (multiplier : ℚ) : PricingRule :=
  ⟨id, 1, 1, 12, 13, none, some multiplier, priority, 0⟩

def ruledStore : Store :=
  { sampleStore with pricingRules :=
    (Table.empty.insert (weekendRule 1 5 2)).insert (weekendRule 2 5 (3 / 2)) }

theorem price_is_sum_of_nights_weekend :
    calculateBookingPrice ruledStore sampleRoom 10 15 = 600 ∧
    calculateBookingPrice ruledStore sampleRoom 10 13 +
      calculateBookingPrice ruledStore sampleRoom 13 15 = 600 := by
  have htotal : calculateBookingPrice ruledStore sampleRoom 10 15 = 600 := by decide +kernel
  refine ⟨htotal, ?_⟩
  rw [← (price_is_sum_of_nights ruledStore sampleRoom).2.2.1 10 13 15 (by decide) (by decide)]
  exact htotal

end HotelMs
