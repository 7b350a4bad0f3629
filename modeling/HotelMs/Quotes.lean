import HotelMs.AvailabilityCache
import HotelMs.Frame
import HotelMs.Lib.Runs
import HotelMs.Nights
import Mathlib.Algebra.BigOperators.Ring.Finset

/-!
# What a search offers and what a booking charges

The rooms and prices of `search_available_rooms` against
`create_booking_endpoint` on the same store. Both ask `get_available_rooms` and
`calculate_booking_price`; only the booking checks its dates and stores its
price in a `Numeric(10, 2)` column.
-/

namespace HotelMs

open Tables SqlTypes Overrides ReadThrough Runs

/-! ### Prices in cents -/

/-- The `Numeric(10, 2)` columns of rooms and pricing rules. -/
structure Store.PricesInCents (s : Store) : Prop where
  base : ∀ r ∈ s.rooms.rows, ∀ p ∈ r.basePrice, HasScale 2 p
  fixed : ∀ r ∈ s.pricingRules.rows, ∀ p ∈ r.price, HasScale 2 p

/-- The multiplier of a rule that has no fixed price. -/
def PricingRule.factor (r : PricingRule) : ℚ :=
  match r.price, r.multiplier with
  | none, some multiplier => multiplier
  | _, _ => 0

/-- The multiplier by which the rule table prices the night, `0` if it does not. -/
def NightFactor (s : Store) (room : Room) (night : ℤ) : ℚ → Prop :=
  Value s.pricingRules.rows PricingRule.rank (PricingRule.AppliesTo room night)
    PricingRule.factor 0

theorem base_hasScale {s : Store} (h : s.PricesInCents) {room : Room}
    (hroom : room ∈ s.rooms.rows) : HasScale 2 (room.basePrice.getD 0) := by
  cases hbase : room.basePrice with
  | none => exact HasScale.zero 2
  | some p => exact h.base room hroom p hbase

theorem rate_sub_factor {s : Store} (h : s.PricesInCents) {r : PricingRule}
    (hr : r ∈ s.pricingRules.rows) {base : ℚ} (hbase : HasScale 2 base) :
    HasScale 2 (r.rate base - base * r.factor) := by
  unfold PricingRule.rate PricingRule.factor
  cases hp : r.price with
  | some price =>
    simp only [mul_zero, sub_zero]
    exact h.fixed r hr price hp
  | none =>
    cases r.multiplier with
    | some multiplier =>
      simp only [sub_self]
      exact HasScale.zero 2
    | none =>
      simp only [mul_zero, sub_zero]
      exact hbase

/-- Apart from its multiplied part a night's price is in cents. -/
theorem nightPrice_sub_factor {s : Store} (h : s.PricesInCents) {room : Room}
    (hroom : room ∈ s.rooms.rows) {night : ℤ} {p f : ℚ} (hp : NightPrice s room night p)
    (hf : NightFactor s room night f) : HasScale 2 (p - room.basePrice.getD 0 * f) := by
  have hbase := base_hasScale h hroom
  cases hp with
  | ruled hr =>
    cases hf with
    | ruled hr' =>
      rw [← hr.unique rank_injective hr']
      exact rate_sub_factor h hr.mem hbase
    | unruled hn => exact absurd hr.here (hn _ hr.mem)
  | unruled hn =>
    cases hf with
    | ruled hr' => exact absurd hr'.here (hn _ hr'.mem)
    | unruled =>
      rw [mul_zero, sub_zero]
      exact hbase

theorem sum_hasScale_iff {s : Store} (h : s.PricesInCents) {room : Room}
    (hroom : room ∈ s.rooms.rows) {price factor : ℤ → ℚ}
    (hprice : ∀ night, NightPrice s room night (price night))
    (hfactor : ∀ night, NightFactor s room night (factor night)) (nights : Finset ℤ) :
    HasScale 2 (∑ night ∈ nights, price night) ↔
      HasScale 2 (room.basePrice.getD 0 * ∑ night ∈ nights, factor night) := by
  have hrest : HasScale 2
      (∑ night ∈ nights, (price night - room.basePrice.getD 0 * factor night)) :=
    HasScale.sum fun night _ => nightPrice_sub_factor h hroom (hprice night) (hfactor night)
  have hsplit : ∑ night ∈ nights, price night =
      ∑ night ∈ nights, (price night - room.basePrice.getD 0 * factor night) +
        room.basePrice.getD 0 * ∑ night ∈ nights, factor night := by
    rw [Finset.mul_sum, ← Finset.sum_add_distrib]
    exact Finset.sum_congr rfl fun night _ => (sub_add_cancel _ _).symm
  rw [hsplit, hrest.add_iff]

/-! ### Every store has its prices in cents -/

theorem numeric?_hasScale {p s : ℕ} {q v : Option ℚ} (h : numeric? p s q = .ok v) :
    ∀ x ∈ v, HasScale s x := by
  intro x hx
  cases q with
  | none =>
    cases h
    cases hx
  | some q =>
    simp only [numeric?, bind_eq_ok, found_eq_ok, pure_eq_ok] at h
    obtain ⟨y, hy, rfl⟩ := h
    obtain rfl := Option.some.inj hx
    exact hasScale_of_numeric hy

theorem roomUpdate_hasScale {data : RoomUpdate} {hotelId : ℤ} {room changed : Room}
    (h : data.apply hotelId room = .ok changed) : ∀ p ∈ changed.basePrice, HasScale 2 p := by
  simp only [RoomUpdate.apply, bind_eq_ok, pure_eq_ok] at h
  obtain ⟨basePrice, hbase, _, _, _, _, rfl⟩ := h
  exact numeric?_hasScale hbase

section

variable {s : Store} (h : s.PricesInCents)

include h

theorem pricesInCents_of_agree {s' : Store} (hrooms : s'.rooms = s.rooms)
    (hrules : s'.pricingRules = s.pricingRules) : s'.PricesInCents := by
  constructor
  · rw [hrooms]
    exact h.base
  · rw [hrules]
    exact h.fixed

theorem updateRoom_pricesInCents (token : Bearer) (roomId : ℤ) (data : RoomUpdate) :
    (committed s (updateRoom s token roomId data)).PricesInCents := by
  cases hr : updateRoom s token roomId data with
  | error e => exact h
  | ok r =>
    obtain ⟨_, room, changed, _, hget, _, happly, _, rfl⟩ := updateRoom_eq_ok.mp hr
    have hid := (roomUpdate_apply happly).1
    refine ⟨fun x hx => ?_, h.fixed⟩
    rcases (Table.mem_update_of_get _ hget).mp hx with rfl | ⟨hx, _⟩
    · rw [Tables.stamp_eq_self (by simp [hid])]
      exact roomUpdate_hasScale happly
    · exact h.base x hx

theorem serveRoom_pricesInCents (token : Bearer) (r : RoomRequest) :
    (serveRoom s token r).PricesInCents := by
  cases r with
  | create data =>
    show (committed s (createRoom s token data)).PricesInCents
    cases hr : createRoom s token data with
    | error e => exact h
    | ok r =>
      obtain ⟨_, basePrice, row, _, hbase, _, rfl, rfl⟩ := createRoom_eq_ok.mp hr
      refine ⟨fun x hx => ?_, h.fixed⟩
      rcases (Table.mem_insert _).mp hx with hx | rfl
      · exact h.base x hx
      · exact numeric?_hasScale hbase
  | update roomId data => exact updateRoom_pricesInCents h token roomId data
  | delete roomId => exact updateRoom_pricesInCents h token roomId deactivation

theorem servePricing_pricesInCents (env : Env) (token : Bearer) (r : PricingRequest) :
    (servePricing env s token r).PricesInCents := by
  cases r with
  | create data =>
    show (committed s (createPricingRule env s token data)).PricesInCents
    cases hr : createPricingRule env s token data with
    | error e => exact h
    | ok r =>
      simp only [createPricingRule, bind_eq_ok, ensure_eq_ok, pure_eq_ok] at hr
      obtain ⟨_, _, price, hprice, _, _, _, _, rfl⟩ := hr
      refine ⟨h.base, fun x hx => ?_⟩
      rcases (Table.mem_insert _).mp hx with hx | rfl
      · exact h.fixed x hx
      · exact numeric?_hasScale hprice
  | delete ruleId =>
    show (committed s (deletePricingRule s token ruleId)).PricesInCents
    cases hr : deletePricingRule s token ruleId with
    | error e => exact h
    | ok r =>
      simp only [deletePricingRule, bind_eq_ok, pure_eq_ok] at hr
      obtain ⟨_, _, _, _, rfl⟩ := hr
      exact ⟨h.base, fun x hx => h.fixed x ((Table.mem_deleteWhere _).mp hx).1⟩

theorem serve_pricesInCents_of_writes (ext : Ext) (env : Env) (token : Bearer) {r : Request}
    (hw : ∀ n ∈ [TableName.rooms, .pricingRules], n ∉ r.writes) :
    (serve ext env s token r).PricesInCents := by
  have hagree := serve_agree ext env s token r
  have hrooms := hagree .rooms (hw _ (by decide))
  have hrules := hagree .pricingRules (hw _ (by decide))
  exact pricesInCents_of_agree h hrooms hrules

theorem deleteHotel_pricesInCents (hotelId : ℤ) :
    (committed s (deleteHotel s hotelId)).PricesInCents := by
  cases hr : deleteHotel s hotelId with
  | error e => exact h
  | ok r =>
    obtain ⟨_, _, _, rfl⟩ := deleteHotel_eq_ok.mp hr
    exact ⟨h.base, fun x hx => h.fixed x ((Table.mem_deleteWhere _).mp hx).1⟩

/-- Whatever is requested, the prices in the tables stay in cents. -/
theorem serve_pricesInCents (ext : Ext) (env : Env) (token : Bearer) (r : Request) :
    (serve ext env s token r).PricesInCents := by
  cases r with
  | room r => exact serveRoom_pricesInCents h token r
  | pricing r => exact servePricing_pricesInCents h env token r
  | hotel r =>
    cases r with
    | delete hotelId => exact deleteHotel_pricesInCents h hotelId
    | _ =>
      refine serve_pricesInCents_of_writes h ext env token ?_
      simp [Request.writes, HotelRequest.writes]
  | auth r =>
    refine serve_pricesInCents_of_writes h ext env token ?_
    cases r <;> simp [Request.writes, PublicRequest.writes]
  | guest r =>
    refine serve_pricesInCents_of_writes h ext env token ?_
    cases r <;> simp [Request.writes, GuestRequest.writes]
  | desk r =>
    refine serve_pricesInCents_of_writes h ext env token ?_
    cases r <;> simp [Request.writes, DeskRequest.writes]
  | user r =>
    refine serve_pricesInCents_of_writes h ext env token ?_
    cases r <;> simp [Request.writes, UserRequest.writes]
  | _ =>
    refine serve_pricesInCents_of_writes h ext env token ?_
    simp [Request.writes]

theorem act_pricesInCents (ext : Ext) (a : Action) : (act ext s a).PricesInCents := by
  cases a with
  | call c => exact serve_pricesInCents h ext c.env c.token c.request
  | payment env c =>
    have hagree : Agree [.bookings, .payments] s (processPayment env s c).2 :=
      processPayment_agree
    exact pricesInCents_of_agree h (hagree .rooms (by decide)) (hagree .pricingRules (by decide))

theorem run_pricesInCents (ext : Ext) (as : List Action) :
    (run (act ext) s as).PricesInCents := by
  have hall : Along (act ext) (fun _ _ => True) s as := along_of_forall fun _ _ _ => trivial
  exact run_invariant (I := Store.PricesInCents) (fun _ a hs _ => act_pricesInCents hs ext a) h hall

end

/-! ### What a search shows -/

theorem searchedRooms_stored {s : Store} {cache : AvailCache} {k : AvailKey} {room : Room}
    (h : room ∈ searchedRooms s cache k) : room ∈ s.rooms.rows := by
  unfold searchedRooms at h
  split at h
  · exact ((Table.mem_select _).mp h).1
  · exact (mem_getAvailableRooms.mp h).1

theorem mem_searchAvailableRooms {s : Store} {cache : AvailCache} {k : AvailKey}
    {q : RoomSearchResponse} :
    q ∈ (searchAvailableRooms s cache k).1 ↔ ∃ room ∈ searchedRooms s cache k,
      q = ⟨room, s.roomTypes.get room.roomTypeId,
        calculateBookingPrice s room k.checkIn k.checkOut⟩ := by
  have hrooms : (searchAvailableRooms s cache k).1 =
      (searchedRooms s cache k).map fun room => ⟨room, s.roomTypes.get room.roomTypeId,
        calculateBookingPrice s room k.checkIn k.checkOut⟩ := by
    unfold searchAvailableRooms
    simp only
    split <;> rfl
  rw [hrooms, List.mem_map]
  simp only [eq_comm]

theorem calculateBookingPrice_eq {s : Store} {room : Room} {price : ℤ → ℚ}
    (hprice : ∀ night, NightPrice s room night (price night)) (checkIn checkOut : ℤ) :
    calculateBookingPrice s room checkIn checkOut =
      ∑ night ∈ Finset.Ico checkIn checkOut, price night := by
  rw [calculateBookingPrice_eq_sum]
  exact Finset.sum_congr rfl fun night _ => nightPrice_iff.mp (hprice night)

/-! ### Quoted and charged -/

/-- A booking is charged what the search quoted exactly when the nightly prices
add up to whole cents: when the multiplied part of them does, the rest being in
cents by its columns. -/
theorem quoted_eq_charged_iff (env : Env) (s : Store) (token : Bearer) (data : BookingCreate)
    (cache : AvailCache) (hotelId : ℤ) (q : RoomSearchResponse)
    (hq : q ∈ (searchAvailableRooms s cache ⟨hotelId, data.checkIn, data.checkOut⟩).1)
    (hroom : q.room.id = data.roomId) (b : Booking) (s' : Store)
    (hb : createBookingEndpoint env s token data = .ok (b, s')) (price factor : ℤ → ℚ)
    (hprice : ∀ night, NightPrice s q.room night (price night))
    (hfactor : ∀ night, NightFactor s q.room night (factor night)) :
    s'.bookings.get b.id = some b ∧
    (q.totalPrice = b.totalPrice ↔
      HasScale 2 (∑ night ∈ Finset.Ico data.checkIn data.checkOut, price night)) ∧
    (s.PricesInCents →
      (q.totalPrice = b.totalPrice ↔ HasScale 2 (q.room.basePrice.getD 0 *
        ∑ night ∈ Finset.Ico data.checkIn data.checkOut, factor night))) := by
  obtain ⟨room, hsearched, rfl⟩ := mem_searchAvailableRooms.mp hq
  have hrow := searchedRooms_stored hsearched
  obtain ⟨user, room', stored, d, _, hget, _, rfl, hstored, _, hr⟩ :=
    createBookingEndpoint_eq_ok.mp hb
  obtain ⟨rfl, rfl⟩ := Prod.mk.inj hr
  obtain ⟨hrow', hid⟩ := (Table.get_eq_some _).mp hget
  obtain rfl : room' = room := s.rooms.eq_of_key hrow' hrow (hid.trans hroom.symm)
  have hexact := numeric_exact_iff hstored
  rw [calculateBookingPrice_eq hprice] at hexact
  have hsame : calculateBookingPrice s room' data.checkIn data.checkOut = stored ↔
      HasScale 2 (∑ night ∈ Finset.Ico data.checkIn data.checkOut, price night) := by
    rw [calculateBookingPrice_eq hprice, eq_comm]
    exact hexact
  refine ⟨Table.get_insert_next _, hsame, fun hcents => ?_⟩
  exact hsame.trans (sum_hasScale_iff hcents hrow hprice hfactor _)

theorem quoted_eq_charged_iff_plain : ∃ b s' q,
    createBookingEndpoint (sampleEnv "txn_1") sampleStore (some 1) sampleStay = .ok (b, s') ∧
    q ∈ (searchAvailableRooms sampleStore (fun _ => none) ⟨1, 10, 12⟩).1 ∧
    q.totalPrice = b.totalPrice := by
  have hq : (⟨sampleRoom, some ⟨1, 1, "Double", none⟩, 200⟩ : RoomSearchResponse) ∈
      (searchAvailableRooms sampleStore (fun _ => none) ⟨1, 10, 12⟩).1 := by decide +kernel
  have hok : (createBookingEndpoint (sampleEnv "txn_1") sampleStore (some 1)
      sampleStay).toOption.isSome = true := by decide +kernel
  cases hb : createBookingEndpoint (sampleEnv "txn_1") sampleStore (some 1) sampleStay with
  | error e =>
    rw [hb] at hok
    cases hok
  | ok r =>
    have hnone : ∀ rule ∈ sampleStore.pricingRules.rows, ∀ night,
        ¬PricingRule.AppliesTo sampleRoom night rule := by
      intro rule hrule
      cases hrule
    have hiff := (quoted_eq_charged_iff (sampleEnv "txn_1") sampleStore (some 1) sampleStay _ 1 _
      hq rfl r.1 r.2 hb (fun _ => 100) (fun _ => 0)
      (fun night => .unruled fun rule hrule => hnone rule hrule night)
      (fun night => .unruled fun rule hrule => hnone rule hrule night)).2.1
    refine ⟨r.1, r.2, _, rfl, hq, hiff.mpr ⟨20000, ?_⟩⟩
    decide +kernel

def roundedStore : Store :=
  { sampleStore with
    rooms := Table.empty.insert ⟨1, 1, 1, none, none, some (9999 / 100), none, true⟩
    pricingRules := Table.empty.insert ⟨1, 1, 1, 10, 10, none, some (201 / 200), 0, 0⟩ }

def oneNight : BookingCreate := ⟨10, 11, 1, by decide⟩

theorem quote_is_rounded :
    (searchAvailableRooms roundedStore (fun _ => none) ⟨1, 10, 11⟩).1.map
        (fun q => (q.room.id, q.totalPrice)) = [(1, 10048995 / 100000)] ∧
    (createBookingEndpoint (sampleEnv "txn_1") roundedStore (some 1) oneNight).toOption.map
        (fun r => (r.1.roomId, r.1.totalPrice)) = some (1, 10049 / 100) := by
  decide +kernel

/-! ### Offered and bookable -/

/-- The body is validated before the handler runs. -/
def validateBooking (checkIn checkOut roomId : ℤ) : Except Error BookingCreate :=
  if h : checkIn < checkOut then .ok ⟨checkIn, checkOut, roomId, h⟩
  else .error (.http 422 "check_out must be later than check_in")

/-- `POST /bookings/` with any dates. -/
def bookRoom (env : Env) (s : Store) (token : Bearer) (checkIn checkOut roomId : ℤ) :
    Except Error (Booking × Store) := do
  let data ← validateBooking checkIn checkOut roomId
  createBookingEndpoint env s token data

theorem validateBooking_eq_ok {checkIn checkOut roomId : ℤ} {data : BookingCreate} :
    validateBooking checkIn checkOut roomId = .ok data ↔
      data.checkIn = checkIn ∧ data.checkOut = checkOut ∧ data.roomId = roomId := by
  unfold validateBooking
  constructor
  · intro h
    split at h
    · cases h
      exact ⟨rfl, rfl, rfl⟩
    · cases h
  · intro h
    obtain ⟨rfl, rfl, rfl⟩ := h
    rw [dif_pos data.validate_date_range]

/-- The room is open for the dates: what both endpoints ask of the tables. -/
def OpenFor (s : Store) (checkIn checkOut : ℤ) (r : Room) : Prop :=
  r.isActive = true ∧ checkBlackoutDates s r.hotelId r.id checkIn checkOut = false ∧
    ∀ b ∈ s.bookings.rows, b.roomId = r.id → b.overlapping r.hotelId checkIn checkOut = false

theorem openFor_iff {s : Store} {checkIn checkOut : ℤ} {r : Room} (hr : r ∈ s.rooms.rows) :
    OpenFor s checkIn checkOut r ↔ r ∈ getAvailableRooms s r.hotelId checkIn checkOut := by
  rw [mem_getAvailableRooms]
  constructor
  · intro h
    exact ⟨hr, rfl, h⟩
  · exact fun h => h.2.2

theorem isAvailable_iff_openFor {s : Store} {checkIn checkOut : ℤ} {r : Room}
    (hr : r ∈ s.rooms.rows) :
    isAvailable s r.hotelId r.id checkIn checkOut = true ↔ OpenFor s checkIn checkOut r := by
  rw [openFor_iff hr, isAvailable_iff]
  constructor
  · intro h
    obtain ⟨r', hr', hid⟩ := h
    rwa [s.rooms.eq_of_key (mem_getAvailableRooms.mp hr').1 hr hid] at hr'
  · exact fun h => ⟨r, h, rfl⟩

theorem offered_iff {s : Store} {cache : AvailCache} {checkIn checkOut : ℤ} {r : Room}
    (hr : r ∈ s.rooms.rows) (hmiss : cache ⟨r.hotelId, checkIn, checkOut⟩ = none) :
    (∃ q ∈ (searchAvailableRooms s cache ⟨r.hotelId, checkIn, checkOut⟩).1, q.room = r) ↔
      OpenFor s checkIn checkOut r := by
  have hsearched : searchedRooms s cache ⟨r.hotelId, checkIn, checkOut⟩ =
      getAvailableRooms s r.hotelId checkIn checkOut := by
    unfold searchedRooms
    rw [hmiss]
  simp only [mem_searchAvailableRooms, hsearched]
  rw [openFor_iff hr]
  constructor
  · intro h
    obtain ⟨q, ⟨room, hroom, rfl⟩, rfl⟩ := h
    exact hroom
  · exact fun h => ⟨_, ⟨r, h, rfl⟩, rfl⟩

theorem bookRoom_accepted_iff {env : Env} {s : Store} {token : Bearer} {user : User}
    (huser : getCurrentUser s token = .ok user) {checkIn checkOut : ℤ} {r : Room}
    (hr : r ∈ s.rooms.rows) (hhotel : (s.hotels.get r.hotelId).isSome = true) :
    (∃ x, bookRoom env s token checkIn checkOut r.id = .ok x) ↔
      checkIn < checkOut ∧ OpenFor s checkIn checkOut r ∧
        |roundHalfAway (calculateBookingPrice s r checkIn checkOut * 10 ^ 2)| < 10 ^ 10 := by
  have hget : s.rooms.get r.id = some r := (Table.get_eq_some _).mpr ⟨hr, rfl⟩
  unfold bookRoom
  simp only [bind_eq_ok, validateBooking_eq_ok, createBookingEndpoint_eq_ok]
  constructor
  · intro h
    obtain ⟨_, data, ⟨rfl, rfl, hid⟩, _, room, price, d, _, hroom, havail, rfl, hprice, _⟩ := h
    rw [hid, hget] at hroom
    obtain rfl := Option.some.inj hroom
    rw [hid, isAvailable_iff_openFor hr] at havail
    exact ⟨data.validate_date_range, havail, (numeric_eq_some.mp hprice).1⟩
  · intro h
    obtain ⟨hdates, hopen, hfits⟩ := h
    have huserRow : (s.users.get user.id).isSome = true := by
      obtain ⟨id, _, hrow⟩ := getCurrentUser_eq_ok.mp huser
      obtain ⟨_, rfl⟩ := (Table.get_eq_some _).mp hrow
      rw [show s.users.get user.id = some user from hrow]
      rfl
    refine ⟨_, ⟨checkIn, checkOut, r.id, hdates⟩, ⟨rfl, rfl, rfl⟩, user, r, _, _, huser, hget,
      (isAvailable_iff_openFor hr).mpr hopen, rfl, numeric_eq_some.mpr ⟨hfits, rfl⟩,
      ⟨hhotel, huserRow⟩, rfl⟩

/-- A search offers a room exactly when it can be booked, provided that a room
which is open for the dates is asked for a night at least and at a price that the
column takes; and not otherwise. -/
theorem offered_eq_bookable_iff (env : Env) (s : Store) (token : Bearer) (user : User)
    (huser : getCurrentUser s token = .ok user) (r : Room) (hr : r ∈ s.rooms.rows)
    (hhotel : (s.hotels.get r.hotelId).isSome = true) (checkIn checkOut : ℤ) (cache : AvailCache)
    (hmiss : cache ⟨r.hotelId, checkIn, checkOut⟩ = none) (price : ℤ → ℚ)
    (hprice : ∀ night, NightPrice s r night (price night)) :
    ((∃ q ∈ (searchAvailableRooms s cache ⟨r.hotelId, checkIn, checkOut⟩).1, q.room = r) ↔
      ∃ x, bookRoom env s token checkIn checkOut r.id = .ok x) ↔
    (OpenFor s checkIn checkOut r →
      checkIn < checkOut ∧
        |roundHalfAway ((∑ night ∈ Finset.Ico checkIn checkOut, price night) * 10 ^ 2)| <
          10 ^ 10) := by
  rw [offered_iff hr hmiss, bookRoom_accepted_iff huser hr hhotel,
    calculateBookingPrice_eq hprice]
  constructor
  · intro h hopen
    obtain ⟨hdates, _, hfits⟩ := h.mp hopen
    exact ⟨hdates, hfits⟩
  · intro h
    constructor
    · intro hopen
      obtain ⟨hdates, hfits⟩ := h hopen
      exact ⟨hdates, hopen, hfits⟩
    · exact fun hbooked => hbooked.2.1

theorem offered_eq_bookable_iff_sample :
    (∃ q ∈ (searchAvailableRooms sampleStore (fun _ => none) ⟨1, 10, 12⟩).1,
      q.room = sampleRoom) ↔
      ∃ x, bookRoom (sampleEnv "txn_1") sampleStore (some 1) 10 12 1 = .ok x := by
  have huser : getCurrentUser sampleStore (some 1) =
      .ok { sampleUser .guest "a@x.org" none with id := 1 } := by decide +kernel
  refine (offered_eq_bookable_iff (sampleEnv "txn_1") sampleStore (some 1) _ huser sampleRoom
    (by decide +kernel) (by decide +kernel) 10 12 (fun _ => none) rfl (fun _ => 100)
    fun night => .unruled fun rule hrule => ?_).mpr ?_
  · cases hrule
  · intro _
    decide +kernel

theorem reversed_stay_offered :
    (searchAvailableRooms sampleStore (fun _ => none) ⟨1, 12, 10⟩).1.map
        (fun q => (q.room.id, q.totalPrice)) = [(1, 0)] ∧
    bookRoom (sampleEnv "txn_1") sampleStore (some 1) 12 10 1 =
      .error (.http 422 "check_out must be later than check_in") := by
  constructor
  · decide +kernel
  · rfl

end HotelMs
