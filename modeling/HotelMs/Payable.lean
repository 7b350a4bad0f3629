import HotelMs.Lib.Runs
import HotelMs.Nights
import HotelMs.PaymentEnds

/-!
# Can a booking be paid

A booking's price is what `calculate_booking_price` makes of the rooms and rules
that their endpoints admit. `process_payment` takes positive amounts only.
-/

namespace HotelMs

open Tables SqlTypes Runs

/-! ### One booking -/

/-- The owner's payment of the stored price goes through and confirms the
booking, whenever the gateway answers with a new transaction id. -/
def Payable (s : Store) (b : Booking) : Prop :=
  ∀ (env : Env) (t method currency : String),
    env.gateway ⟨b.totalPrice, currency, method⟩ = some t → FreshTransaction s t →
    method ∈ paymentMethods → varchar 3 currency = some currency →
    (processPayment env s ⟨b.id, b.userId, b.totalPrice, method, currency⟩).1 =
        .ok { b with status := .confirmed } ∧
      (processPayment env s ⟨b.id, b.userId, b.totalPrice, method, currency⟩).2.bookings.get
        b.id = some { b with status := .confirmed }

theorem payable_of_pos {s : Store} {b : Booking} (hb : s.bookings.get b.id = some b)
    (hstatus : b.status = .pending) (huser : (s.users.get b.userId).isSome = true)
    (hstored : numeric 10 2 b.totalPrice = some b.totalPrice) (hpos : 0 < b.totalPrice) :
    Payable s b := by
  intro env t method currency hg hfresh hmethod hcurrency
  have hopen : b.status ≠ .cancelled ∧ b.status ≠ .completed := by
    rw [hstatus]
    exact ⟨by decide, by decide⟩
  have haccepted : Accepted s ⟨b.id, b.userId, b.totalPrice, method, currency⟩ b.totalPrice
      currency :=
    ⟨⟨b, paymentCheck_eq_ok.mpr ⟨hpos, hb, hopen⟩⟩, hstored, hcurrency, hmethod, huser⟩
  rw [processPayment_of_charged haccepted hb hg hfresh]
  refine ⟨rfl, ?_⟩
  show (s.bookings.update b.id _).get b.id = _
  rw [Table.get_update, hb, Option.map_some, if_pos rfl, stamp_booking]

theorem pos_of_payable {s : Store} {b : Booking} (h : Payable s b) : 0 < b.totalPrice := by
  have hpaid := (h ⟨0, "", "", fun _ => some ""⟩ "" "card" "USD" rfl (Or.inl rfl) (by decide)
    (by decide +kernel)).1
  obtain ⟨_, _, _, haccepted, _⟩ := processPayment_eq_ok hpaid
  obtain ⟨_, hcheck⟩ := haccepted.check
  exact (paymentCheck_eq_ok.mp hcheck).1

/-! ### Bookings just made -/

/-- The nightly prices of the stay add up to half a cent, the least that a
`Numeric(10, 2)` column rounds up to a positive amount. -/
def WorthACent (s : Store) (data : BookingCreate) : Prop :=
  ∀ room, s.rooms.get data.roomId = some room →
    ∀ price : ℤ → ℚ, (∀ night, NightPrice s room night (price night)) →
      1 / 200 ≤ ∑ night ∈ Finset.Ico data.checkIn data.checkOut, price night

theorem worthACent_iff {s : Store} {data : BookingCreate} {room : Room}
    (hroom : s.rooms.get data.roomId = some room) :
    WorthACent s data ↔ 1 / 200 ≤ calculateBookingPrice s room data.checkIn data.checkOut := by
  unfold WorthACent
  rw [calculateBookingPrice_eq_sum]
  constructor
  · intro h
    exact h room hroom _ fun night => nightPrice_dailyPrice s room night
  · intro h room' hroom' price hprice
    obtain rfl := Option.some.inj (hroom.symm.trans hroom')
    have hsum : ∑ night ∈ Finset.Ico data.checkIn data.checkOut, price night =
        ∑ night ∈ Finset.Ico data.checkIn data.checkOut, dailyPrice s room night :=
      Finset.sum_congr rfl fun night _ => (nightPrice_iff.mp (hprice night)).symm
    rw [hsum]
    exact h

theorem payable_created_iff {env : Env} {s s' : Store} {token : Bearer} {data : BookingCreate}
    {b : Booking} (h : createBookingEndpoint env s token data = .ok (b, s')) :
    Payable s' b ↔ WorthACent s data := by
  obtain ⟨user, room, price, d, _, hroom, _, rfl, hprice, hfk, hr⟩ :=
    createBookingEndpoint_eq_ok.mp h
  obtain ⟨rfl, rfl⟩ := Prod.mk.inj hr
  have hcent : 0 < price ↔ WorthACent s data := by
    rw [worthACent_iff hroom, numeric_pos_iff hprice]
    constructor <;> intro hle <;> linarith
  rw [← hcent]
  constructor
  · exact pos_of_payable
  · intro hpos
    refine payable_of_pos ?_ rfl hfk.2 (numeric_stored hprice) hpos
    exact Table.get_insert_next _

/-- If the request makes a booking, it can be paid. -/
def MakesPayable (s : Store) : Action → Prop
  | .call ⟨env, token, .guest (.createBooking data)⟩ =>
    ∀ b s', createBookingEndpoint env s token data = .ok (b, s') → Payable s' b
  | _ => True

/-- If the request makes a booking, its nights are worth a cent. -/
def BooksWorth (s : Store) : Action → Prop
  | .call ⟨env, token, .guest (.createBooking data)⟩ =>
    ∀ b s', createBookingEndpoint env s token data = .ok (b, s') → WorthACent s data
  | _ => True

theorem makesPayable_iff (s : Store) (a : Action) : MakesPayable s a ↔ BooksWorth s a := by
  unfold MakesPayable BooksWorth
  split
  · constructor
    · exact fun h b s' hb => (payable_created_iff hb).mp (h b s' hb)
    · exact fun h b s' hb => (payable_created_iff hb).mpr (h b s' hb)
  · exact Iff.rfl

/-- In every run, every booking can be paid when it is made exactly when every
booking that goes through is worth a cent. -/
theorem bookings_payable_iff (ext : Ext) (s : Store) (as : List Action) :
    Along (act ext) MakesPayable s as ↔ Along (act ext) BooksWorth s as :=
  along_congr makesPayable_iff

def freeStore : Store :=
  run (act sampleExt) sampleStore
    [asks 3 (.room (.create ⟨1, 1, none, none, none, none, true⟩)),
      asks 1 (.guest (.createBooking { sampleStay with roomId := 2 }))]

theorem free_booking_unpayable :
    (freeStore.bookings.get 1).map (fun b => (b.userId, b.totalPrice, b.status)) =
        some (1, 0, .pending) ∧
    (processPayment (sampleEnv "txn_1") freeStore (stayPayment 0)).1 =
      .error (.payment "Payment amount must be positive") := by
  constructor
  · decide +kernel
  · have hzero : ¬(0 : ℚ) < (stayPayment 0).amount := by decide +kernel
    have hcheck : paymentCheck freeStore 1 (stayPayment 0).amount =
        .error (.payment "Payment amount must be positive") := by
      unfold paymentCheck ensure
      rw [if_neg hzero]
      rfl
    rw [processPayment_of_refused hcheck]

end HotelMs
