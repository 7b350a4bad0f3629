import HotelMs.Checkout
import HotelMs.DatePickers
import HotelMs.Quotes
import HotelMs.RecommendRobust
import HotelMs.Lib.HalfEven
import HotelMs.Lib.Rounding
import Mathlib.Algebra.Order.Archimedean.Basic

/-!
# The booking page (`pages/public/Booking.jsx`)

The page multiplies one nightly price by nights and rooms. What it then pays is
the price of the booking that the server made.
-/

namespace HotelMs

open Calendar Runs Numerals SqlTypes Rounding Tables

/-- Numbers of the page. `number` reads a decimal; `toLocaleString` prints three
decimals at most, and `thousandths` is what it prints. -/
structure JsFloat where
  Carrier : Type
  number : ℚ → Carrier
  mul : Carrier → Carrier → Carrier
  thousandths : Carrier → ℤ

/-! ### Rooms (`GuestsPicker.jsx`) -/

inductive RoomsClick
  | minus
  | plus

def roomsStep (rooms : ℕ) : RoomsClick → ℕ
  | .minus => max 1 (rooms - 1)
  | .plus => min 30 (rooms + 1)

def selectedRooms (clicks : List RoomsClick) : ℕ := run roomsStep 1 clicks

/-! ### The total -/

/-- `new Date(text)` of an ISO date is midnight in UTC. -/
def newDate (text : String) : JsDate :=
  (readDate text.toList).bind fun c => timeClip ((c.ordinal - epochDay) * msPerDay)

def mathRound (x : ℚ) : ℤ := ⌊x + 1 / 2⌋

section

variable (J : JsFloat)

/-- What the total is made of, beside the form. -/
structure BookingPage extends CheckoutForm where
  pricePerNight : J.Carrier
  rooms : ℕ

variable {J} (page : BookingPage J)

/-- `none` is `NaN`. -/
def BookingPage.nights : Option ℤ :=
  if page.checkIn ≠ "" ∧ page.checkOut ≠ "" then do
    let checkOut ← newDate page.checkOut
    let checkIn ← newDate page.checkIn
    return max 1 (mathRound ((checkOut - checkIn : ℤ) / msPerDay))
  else some 1

def BookingPage.total : Option J.Carrier :=
  page.nights.map fun nights : ℤ =>
    J.mul (J.mul page.pricePerNight (J.number (nights : ℚ))) (J.number page.rooms)

/-- The amount in `${total.toLocaleString()}`. -/
def BookingPage.shown : Option ℚ := page.total.map fun total => J.thousandths total / 1000

end

/-! ### The payment -/

def isoDate (text : String) : Option ℤ := pyDate text.toList

section

variable (token : Bearer) (form : CheckoutForm) (thisMonth : ℕ) (d₁ : Exchange) (s : Store)

/-- The handler gets to `makePayment`, with this request. -/
structure Submits (request : PaymentRequest) : Prop where
  dated : ¬(form.checkIn = "" ∨ form.checkOut = "")
  valid : validatePayment thisMonth form = none
  booked : ∃ booking s₁, post d₁ s (bookingEndpoint isoDate token form s) = (.ok booking, s₁) ∧
    request = paymentRequest booking

variable {token form thisMonth d₁ s}

/-- The second request of the handler is the payment of this request. -/
theorem Submits.handleConfirm {request : PaymentRequest}
    (h : Submits token form thisMonth d₁ s request) (d₂ : Exchange) :
    ∃ booking s₁, request = paymentRequest booking ∧
      handleConfirm isoDate token form thisMonth d₁ d₂ s =
        match post d₂ s₁ (paymentEndpoint token booking s₁) with
        | (.error e, s₂) => (.error e.message, s₂)
        | (.ok _, s₂) => (.confirmation booking.id, s₂) := by
  obtain ⟨booking, s₁, hbooked, hrequest⟩ := h.booked
  refine ⟨booking, s₁, hrequest, ?_⟩
  unfold HotelMs.handleConfirm
  rw [if_neg h.dated, h.valid]
  cases hpaid : post d₂ s₁ (paymentEndpoint token booking s₁) with
  | mk paid s₂ => cases paid <;> simp only [hbooked, hpaid]

/-- What is paid is the stored price of the nights. -/
theorem Submits.amount {request : PaymentRequest}
    (h : Submits token form thisMonth d₁ s request) :
    ∃ checkIn checkOut room, isoDate form.checkIn = some checkIn ∧
      isoDate form.checkOut = some checkOut ∧ checkIn < checkOut ∧
      s.rooms.get form.roomId = some room ∧
      numeric 10 2 (calculateBookingPrice s room checkIn checkOut) = some request.amount := by
  obtain ⟨booking, s₁, hbooked, rfl⟩ := h.booked
  obtain ⟨env, _, hendpoint⟩ := post_eq_ok.mp hbooked
  obtain ⟨data, hdata, hcreated⟩ := bookingEndpoint_eq_ok.mp hendpoint
  obtain ⟨hroom, hin, hout⟩ := CheckoutForm.bookingCreate_eq_some.mp hdata
  obtain ⟨_, room, price, _, _, hget, _, rfl, hprice, _, hr⟩ :=
    createBookingEndpoint_eq_ok.mp hcreated
  rw [hroom] at hget
  obtain ⟨rfl, rfl⟩ := Prod.mk.inj hr
  exact ⟨_, _, room, hin, hout, data.validate_date_range, hget, hprice⟩

end

/-! ### What is shown, and what is paid -/

/-- Every number is the nearest double; whole numbers are exact as long as they
are doubles. -/
structure PageFloat extends JsFloat where
  value : Carrier → ℚ
  number_rounds : ∀ q, Rounds (value (number q)) q
  number_intCast : ∀ i : ℤ, i.natAbs ≤ 2 ^ 53 → value (number i) = i
  mul_rounds : ∀ x y, Rounds (value (mul x y)) (value x * value y)
  thousandths_near : ∀ x, |value x * 1000 - thousandths x| ≤ 1 / 2

theorem selectedRooms_range (clicks : List RoomsClick) :
    1 ≤ selectedRooms clicks ∧ selectedRooms clicks ≤ 30 := by
  refine run_invariant (I := fun rooms => 1 ≤ rooms ∧ rooms ≤ 30) (P := fun _ _ => True)
    (fun rooms click h _ => ?_) ⟨le_rfl, by decide⟩ (along_of_forall fun _ _ _ => trivial)
  cases click with
  | minus => exact ⟨le_max_left _ _, max_le (by decide) (by omega)⟩
  | plus => exact ⟨le_min (by decide) (by omega), min_le_left _ _⟩

/-- The error relative to a number, or to one if it is smaller. -/
theorem Rounds.near {z y : ℚ} (h : Rounds z y) (hy : |y| ≤ 2 ^ 60) :
    |z - y| ≤ 1 / 2 ^ 53 * (1 + |y|) := by
  by_cases hsmall : |y| ≤ 1
  · have hone := h 0 (by decide) (by rw [pow_zero]; exact hsmall)
    have habs := abs_nonneg y
    linarith
  · obtain ⟨n, hlow, hhigh⟩ := exists_nat_pow_near (not_le.mp hsmall).le (one_lt_two (α := ℚ))
    have hn : n < 61 := by
      by_contra hn
      have hpow : (2 : ℚ) ^ 61 ≤ 2 ^ n := pow_le_pow_right₀ one_le_two (not_lt.mp hn)
      linarith
    have hnext := h (n + 1) (by omega) hhigh.le
    rw [pow_succ] at hnext
    linarith

theorem mathRound_intCast (i : ℤ) : mathRound i = i := by
  unfold mathRound
  rw [Int.floor_eq_iff]
  constructor <;> linarith

theorem pyDate_range {text : List Char} {n : ℤ} (h : pyDate text = some n) :
    1 ≤ n ∧ n ≤ 3652059 := by
  unfold pyDate at h
  obtain ⟨c, hread, hc⟩ := Option.bind_eq_some_iff.mp h
  split at hc
  next hyear =>
    obtain rfl := Option.some_inj.mp hc
    have hyearOf : yearOf c.ordinal = c.year :=
      congrArg Date.year (dateOf_ordinal (readDate_valid hread))
    obtain ⟨hlow, hhigh⟩ := yearOf_spec c.ordinal
    rw [hyearOf] at hlow hhigh
    have hfirst : yearStart 1 = 0 := rfl
    have hlast : yearStart 10000 = 3652059 := rfl
    have hbelow := yearStart_mono hyear.1.1
    have habove := yearStart_mono (show c.year + 1 ≤ 10000 by omega)
    omega
  next => cases hc

theorem newDate_of_isoDate {text : String} {n : ℤ} (h : isoDate text = some n) :
    newDate text = some ((n - epochDay) * msPerDay) := by
  have hrange := pyDate_range h
  unfold isoDate pyDate at h
  obtain ⟨c, hread, hc⟩ := Option.bind_eq_some_iff.mp h
  have hn : c.ordinal = n := by
    split at hc
    · exact Option.some_inj.mp hc
    · cases hc
  rw [newDate, hread, Option.bind_some, hn, timeClip, if_pos]
  unfold epochDay msPerDay
  omega

theorem ne_empty_of_isoDate {text : String} {n : ℤ} (h : isoDate text = some n) :
    text ≠ "" := by
  rintro rfl
  have hnone : isoDate "" = none := by decide
  rw [hnone] at h
  cases h

/-- A stay that the server accepts has as many nights on the page. -/
theorem nights_eq {J : JsFloat} {page : BookingPage J} {checkIn checkOut : ℤ}
    (hin : isoDate page.checkIn = some checkIn) (hout : isoDate page.checkOut = some checkOut)
    (hlt : checkIn < checkOut) : page.nights = some (checkOut - checkIn) := by
  unfold BookingPage.nights
  rw [if_pos ⟨ne_empty_of_isoDate hin, ne_empty_of_isoDate hout⟩, newDate_of_isoDate hin,
    newDate_of_isoDate hout]
  have hdays : (((checkOut - epochDay) * msPerDay - (checkIn - epochDay) * msPerDay : ℤ) : ℚ) /
      msPerDay = (checkOut - checkIn : ℤ) := by
    rw [← sub_mul, sub_sub_sub_cancel_right, Int.cast_mul]
    exact mul_div_cancel_right₀ _ (by decide)
  show some (max 1 (mathRound _)) = _
  rw [hdays, mathRound_intCast, max_eq_right (by omega)]

section

variable (J : PageFloat) {base : ℚ} {nights rooms : ℤ}

theorem total_near (hbase : |base| ≤ 2 ^ 27) (hn : 1 ≤ nights) (hn' : nights ≤ 2 ^ 22)
    (hr : 1 ≤ rooms) (hr' : rooms ≤ 30) :
    |J.value (J.mul (J.mul (J.number base) (J.number nights)) (J.number rooms)) -
      base * nights * rooms| ≤ 5 * (1 / 2 ^ 53) * (nights * rooms + |base * nights * rooms|) := by
  have hn₁ : (1 : ℚ) ≤ nights := by exact_mod_cast hn
  have hn₂ : (nights : ℚ) ≤ 2 ^ 22 := by exact_mod_cast hn'
  have hr₁ : (1 : ℚ) ≤ rooms := by exact_mod_cast hr
  have hr₂ : (rooms : ℚ) ≤ 30 := by exact_mod_cast hr'
  have hprice := (J.number_rounds base).near (by linarith)
  have hq := J.mul_rounds (J.number base) (J.number nights)
  have hlast := J.mul_rounds (J.mul (J.number base) (J.number nights)) (J.number rooms)
  rw [J.number_intCast nights (by omega)] at hq
  rw [J.number_intCast rooms (by omega)] at hlast
  generalize J.value (J.number base) = p at *
  generalize J.value (J.mul (J.number base) (J.number nights)) = q at *
  have hp : |p| ≤ 2 ^ 28 := by
    have htri := abs_add_le (p - base) base
    rw [sub_add_cancel] at htri
    linarith
  have hpn : |p * nights| ≤ 2 ^ 50 := by
    rw [abs_mul, abs_of_nonneg (by linarith : (0 : ℚ) ≤ nights)]
    calc |p| * nights ≤ 2 ^ 28 * 2 ^ 22 := by gcongr
      _ = 2 ^ 50 := by norm_num
  have hfirst := hq.near (by linarith)
  have hq' : |q| ≤ 2 ^ 51 := by
    have htri := abs_add_le (q - p * nights) (p * nights)
    rw [sub_add_cancel] at htri
    linarith
  have hqr : |q * rooms| ≤ 2 ^ 56 := by
    rw [abs_mul, abs_of_nonneg (by linarith : (0 : ℚ) ≤ rooms)]
    calc |q| * rooms ≤ 2 ^ 51 * 30 := by gcongr
      _ ≤ 2 ^ 56 := by norm_num
  exact mul_mul_near (by norm_num) (by norm_num) hn₁ hr₁ hprice hfirst (hlast.near (by linarith))

/-- What is shown is a number of cents, and no other cent is as near. -/
theorem eq_of_shown {total amount r work : ℚ} {t k a : ℤ} (htotal : total * 10 ^ 2 = k)
    (hamount : amount * 10 ^ 2 = a) (hfits : |amount| ≤ 2 ^ 27) (hwork : work ≤ 2 ^ 27)
    (hnear : |r - total| ≤ 5 * (1 / 2 ^ 53) * (work + |total|))
    (hshown : |r * 1000 - t| ≤ 1 / 2) (h : (t : ℚ) / 1000 = amount) : total = amount := by
  have ht : (t : ℚ) = amount * 1000 := by rw [← h]; ring
  rw [ht, ← sub_mul, abs_mul, abs_of_pos (by norm_num : (0 : ℚ) < 1000)] at hshown
  have htri := abs_sub_le total r amount
  rw [abs_sub_comm total r] at htri
  -- `total` is near to `amount`, so it is no larger than an amount that can be paid
  have hbound : |total| ≤ 2 ^ 28 := by
    have hsum := abs_add_le (total - amount) amount
    rw [sub_add_cancel] at hsum
    linarith
  have hclose : |total * 10 ^ 2 - a| ≤ 1 / 2 := by
    rw [← hamount, ← sub_mul, abs_mul, abs_of_pos (by norm_num : (0 : ℚ) < 10 ^ 2)]
    linarith
  have hsame : |total * 10 ^ 2 - k| < 1 / 2 := by
    rw [htotal, sub_self, abs_zero]
    norm_num
  have hcents : (a : ℚ) = k := congrArg Int.cast (eq_of_near hclose hsame)
  linarith

theorem shown_of_near {total r work : ℚ} {t a : ℤ} (htotal : total * 10 ^ 2 = a)
    (hfits : |total| ≤ 2 ^ 27) (hwork : work ≤ 2 ^ 27)
    (hnear : |r - total| ≤ 5 * (1 / 2 ^ 53) * (work + |total|))
    (hshown : |r * 1000 - t| ≤ 1 / 2) : (t : ℚ) / 1000 = total := by
  have hclose : |r * 1000 - (10 * a : ℤ)| < 1 / 2 := by
    have hscaled : r * 1000 - (10 * a : ℤ) = (r - total) * 1000 := by
      push_cast
      rw [← htotal]
      ring
    rw [hscaled, abs_mul, abs_of_pos (by norm_num : (0 : ℚ) < 1000)]
    linarith
  rw [eq_of_near hshown hclose, Int.cast_mul, ← htotal]
  push_cast
  ring

/-- Among amounts in cents the page shows the exact one, as long as it could be paid. -/
theorem thousandths_eq_iff {amount : ℚ} (hbase : |base| ≤ 2 ^ 27) (hn : 1 ≤ nights)
    (hn' : nights ≤ 2 ^ 22) (hr : 1 ≤ rooms) (hr' : rooms ≤ 30) (hcents : HasScale 2 base)
    (hamount : HasScale 2 amount) (hfits : |amount| ≤ 2 ^ 27) :
    (J.thousandths (J.mul (J.mul (J.number base) (J.number nights)) (J.number rooms)) : ℚ) / 1000 =
      amount ↔ base * nights * rooms = amount := by
  have hnear := total_near J hbase hn hn' hr hr'
  have hshown := J.thousandths_near
    (J.mul (J.mul (J.number base) (J.number nights)) (J.number rooms))
  have hwork : (nights : ℚ) * rooms ≤ 2 ^ 27 := by
    have hn₂ : (nights : ℚ) ≤ 2 ^ 22 := by exact_mod_cast hn'
    have hr₁ : (0 : ℚ) ≤ rooms := by exact_mod_cast le_trans zero_le_one hr
    have hr₂ : (rooms : ℚ) ≤ 30 := by exact_mod_cast hr'
    calc (nights : ℚ) * rooms ≤ 2 ^ 22 * 30 := by gcongr
      _ ≤ 2 ^ 27 := by norm_num
  obtain ⟨b, hb⟩ := hcents
  obtain ⟨a, ha⟩ := hamount
  have htotal : base * nights * rooms * 10 ^ 2 = (b * nights * rooms : ℤ) := by
    push_cast
    rw [← hb]
    ring
  constructor
  · intro h
    exact eq_of_shown htotal ha hfits hwork hnear hshown h
  · intro h
    rw [h] at hnear
    exact shown_of_near ha hfits hwork hnear hshown

end

theorem abs_le_of_numeric {q v : ℚ} (h : numeric 10 2 q = some v) : |v| ≤ 2 ^ 27 := by
  obtain ⟨hfits, rfl⟩ := numeric_eq_some.mp h
  have hcast : |(roundHalfAway (q * 10 ^ 2) : ℚ)| < 10 ^ 10 := by exact_mod_cast hfits
  rw [abs_div, abs_of_pos (by norm_num : (0 : ℚ) < 10 ^ 2), div_le_iff₀ (by norm_num)]
  linarith

/-- The nights' own prices come to the page's product, rounded as the column rounds. -/
def RulesPayRooms (base : ℚ) (price : ℤ → ℚ) (checkIn checkOut : ℤ) (rooms : ℕ) : Prop :=
  roundHalfAway ((∑ night ∈ Finset.Ico checkIn checkOut, price night) * 10 ^ 2) =
    base * (checkOut - checkIn : ℤ) * rooms * 10 ^ 2

/-- In whole cents: what the rules add to the nights is the price of the other rooms. -/
theorem rulesPayRooms_iff {base : ℚ} {price : ℤ → ℚ} {checkIn checkOut : ℤ} {rooms : ℕ}
    (hle : checkIn ≤ checkOut)
    (hcents : HasScale 2 (∑ night ∈ Finset.Ico checkIn checkOut, price night)) :
    RulesPayRooms base price checkIn checkOut rooms ↔
      ∑ night ∈ Finset.Ico checkIn checkOut, (price night - base) =
        base * (checkOut - checkIn : ℤ) * (rooms - 1) := by
  obtain ⟨c, hc⟩ := hcents
  have hcard : ((checkOut - checkIn).toNat : ℚ) = (checkOut - checkIn : ℤ) := by
    rw [← Int.cast_natCast, Int.toNat_of_nonneg (by omega)]
  unfold RulesPayRooms
  rw [hc, roundHalfAway_intCast, ← hc, Finset.sum_sub_distrib, Finset.sum_const, Int.card_Ico,
    nsmul_eq_mul, hcard]
  constructor
  · intro h
    linarith
  · intro h
    linarith

theorem shown_eq_paid_iff (J : PageFloat) {page : BookingPage J.toJsFloat} {token : Bearer}
    {thisMonth : ℕ} {d₁ : Exchange} {s : Store} {request : PaymentRequest}
    (hsubmits : Submits token page.toCheckoutForm thisMonth d₁ s request) {room : Room}
    (hroom : s.rooms.get page.roomId = some room)
    (hcolumn : numeric 10 2 (room.basePrice.getD 0) = some (room.basePrice.getD 0))
    (hpage : page.pricePerNight = J.number (room.basePrice.getD 0))
    {clicks : List RoomsClick} (hrooms : page.rooms = selectedRooms clicks)
    {checkIn checkOut : ℤ} (hin : isoDate page.checkIn = some checkIn)
    (hout : isoDate page.checkOut = some checkOut) {price : ℤ → ℚ}
    (hprice : ∀ night, NightPrice s room night (price night)) :
    page.shown = some request.amount ↔
      RulesPayRooms (room.basePrice.getD 0) price checkIn checkOut page.rooms := by
  obtain ⟨checkIn', checkOut', room', hin', hout', hlt, hroom', hamount⟩ := hsubmits.amount
  obtain rfl := Option.some_inj.mp (hin.symm.trans hin')
  obtain rfl := Option.some_inj.mp (hout.symm.trans hout')
  obtain rfl := Option.some_inj.mp (hroom.symm.trans hroom')
  have hfirst := pyDate_range hin
  have hlast := pyDate_range hout
  obtain ⟨hr, hr'⟩ := selectedRooms_range clicks
  rw [← hrooms] at hr hr'
  have hnights : 1 ≤ checkOut - checkIn := by omega
  have hr₁ : (1 : ℤ) ≤ page.rooms := by omega
  have hiff := thousandths_eq_iff J (abs_le_of_numeric hcolumn) hnights (by omega) hr₁ (by omega)
    (hasScale_of_numeric hcolumn) (hasScale_of_numeric hamount) (abs_le_of_numeric hamount)
  unfold BookingPage.shown BookingPage.total
  rw [nights_eq hin hout hlt, hpage, Option.map_some, Option.map_some, Option.some_inj]
  rw [Int.cast_natCast] at hiff
  refine hiff.trans ?_
  rw [calculateBookingPrice_eq hprice] at hamount
  rw [(numeric_eq_some.mp hamount).2, eq_div_iff (by norm_num), eq_comm]
  rfl

def exactPage : PageFloat where
  Carrier := ℚ
  number := fun (q : ℚ) => q
  mul := fun (x y : ℚ) => x * y
  thousandths := fun (x : ℚ) => HalfEven.halfEven (x * 1000)
  value := fun (x : ℚ) => x
  number_rounds := fun (q : ℚ) => .refl q
  number_intCast := fun _ _ => rfl
  mul_rounds := rounds_mul
  thousandths_near := fun (x : ℚ) => HalfEven.abs_sub_halfEven_le (x * 1000)

def stayPage (clicks : List RoomsClick) : BookingPage exactPage.toJsFloat where
  toCheckoutForm := sampleForm
  pricePerNight := (100 : ℚ)
  rooms := selectedRooms clicks

theorem stayPage_submits :
    Submits (some 1) sampleForm 24312 (.answered downEnv) sampleStore
      (paymentRequest heldBooking) := by
  have hdata : sampleForm.bookingCreate isoDate = some sampleRequest := by
    refine CheckoutForm.bookingCreate_eq_some.mpr ⟨rfl, ?_, ?_⟩ <;> decide +kernel
  exact ⟨by decide, by decide +kernel, heldBooking, heldStore,
    post_eq_ok.mpr ⟨downEnv, rfl, bookingEndpoint_eq_ok.mpr ⟨sampleRequest, hdata, sample_books⟩⟩,
    rfl⟩

theorem shown_eq_paid_one_room :
    (stayPage []).shown = some (paymentRequest heldBooking).amount := by
  have hin : isoDate (stayPage []).checkIn = some 739626 := by decide +kernel
  have hout : isoDate (stayPage []).checkOut = some 739628 := by decide +kernel
  have hroom : sampleStore.rooms.get (stayPage []).roomId = some sampleRoom := by decide +kernel
  have hrooms : (stayPage []).rooms = selectedRooms [] := rfl
  have hprice : ∀ night, NightPrice sampleStore sampleRoom night 100 := by
    intro night
    refine .unruled fun rule hrule => ?_
    cases hrule
  have hrules : RulesPayRooms (sampleRoom.basePrice.getD 0) (fun _ => 100) 739626 739628
      (stayPage []).rooms := by
    unfold RulesPayRooms
    decide +kernel
  exact (shown_eq_paid_iff exactPage stayPage_submits hroom (by decide +kernel) rfl hrooms hin hout
    hprice).mpr hrules

/-- Two rooms are shown, one is booked and paid. -/
theorem two_rooms_shown :
    Submits (some 1) (stayPage [.plus]).toCheckoutForm 24312 (.answered downEnv) sampleStore
      (paymentRequest heldBooking) ∧
    sampleStore.rooms.get (stayPage [.plus]).roomId = some sampleRoom ∧
    (stayPage [.plus]).pricePerNight = exactPage.number (sampleRoom.basePrice.getD 0) ∧
    (stayPage [.plus]).shown ≠ some (paymentRequest heldBooking).amount := by
  have hshown : (stayPage [.plus]).shown = some 400 := by decide +kernel
  refine ⟨stayPage_submits, by decide +kernel, rfl, ?_⟩
  rw [hshown]
  decide +kernel

end HotelMs
