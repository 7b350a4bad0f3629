import HotelMs.Frame

/-!
# Hotels do not interfere through their inventory

What the readers see of a hotel, its availability and its prices, depends on
the rows tagged with that hotel. The inventory endpoints write only rows tagged
with the caller's hotel, whatever ids the request names.
-/

namespace HotelMs

open Tables

/-! ### What the readers see of a hotel -/

structure SameHotel (h : ℤ) (s s' : Store) : Prop where
  rooms : s'.rooms.select (fun r => r.hotelId = h) = s.rooms.select fun r => r.hotelId = h
  bookings : s'.bookings.select (fun b => b.hotelId = h) =
    s.bookings.select fun b => b.hotelId = h
  blackoutDates : s'.blackoutDates.select (fun d => d.hotelId = h) =
    s.blackoutDates.select fun d => d.hotelId = h
  pricingRules : s'.pricingRules.select (fun r => r.hotelId = h) =
    s.pricingRules.select fun r => r.hotelId = h

theorem SameHotel.refl (h : ℤ) (s : Store) : SameHotel h s s := ⟨rfl, rfl, rfl, rfl⟩

theorem BlackoutDate.hotel_of_inWindow {h checkIn checkOut : ℤ} {d : BlackoutDate}
    (hd : d.inWindow h checkIn checkOut = true) : d.hotelId = h := by
  simp only [BlackoutDate.inWindow, Bool.and_eq_true, decide_eq_true_eq] at hd
  exact hd.1.1

theorem getAvailableRooms_of_sameHotel {h : ℤ} {s s' : Store} (hsame : SameHotel h s s')
    (checkIn checkOut : ℤ) :
    getAvailableRooms s' h checkIn checkOut = getAvailableRooms s h checkIn checkOut := by
  have hdays : ∀ p : BlackoutDate → Bool,
      s'.blackoutDates.any (fun d => d.inWindow h checkIn checkOut && p d) =
        s.blackoutDates.any (fun d => d.inWindow h checkIn checkOut && p d) := by
    intro p
    refine Table.any_eq_of_select _ hsame.blackoutDates fun d hd => ?_
    rw [Bool.and_eq_true] at hd
    exact decide_eq_true (BlackoutDate.hotel_of_inWindow hd.1)
  have hstays : ∀ r : Room,
      s'.bookings.any (fun b => b.overlapping h checkIn checkOut && b.roomId = r.id) =
        s.bookings.any (fun b => b.overlapping h checkIn checkOut && b.roomId = r.id) := by
    intro r
    refine Table.any_eq_of_select _ hsame.bookings fun b hb => ?_
    rw [Bool.and_eq_true] at hb
    exact decide_eq_true (overlapping_eq_true.mp hb.1).1
  unfold getAvailableRooms
  simp only [hdays, hstays]
  split
  · rfl
  · refine Table.select_eq_of_select _ hsame.rooms fun r hr => ?_
    simp only [Bool.and_eq_true] at hr
    exact hr.1.1.1

theorem dailyPrice_of_sameHotel {h : ℤ} {s s' : Store} (hsame : SameHotel h s s') {room : Room}
    (hroom : room.hotelId = h) (day : ℤ) : dailyPrice s' room day = dailyPrice s room day := by
  have hrules : ∀ t : ℤ,
      getRulesForRoomType s' h t day day = getRulesForRoomType s h t day day := by
    intro t
    unfold getRulesForRoomType
    rw [Table.select_eq_of_select _ hsame.pricingRules fun r hr => ?_]
    simp only [Bool.and_eq_true] at hr
    exact hr.1.1.1
  unfold dailyPrice
  rw [hroom, hrules]

theorem calculateBookingPrice_of_sameHotel {h : ℤ} {s s' : Store} (hsame : SameHotel h s s')
    {room : Room} (hroom : room.hotelId = h) (checkIn checkOut : ℤ) :
    calculateBookingPrice s' room checkIn checkOut =
      calculateBookingPrice s room checkIn checkOut := by
  have hloop : ∀ n day total, priceLoop s' room n day total = priceLoop s room n day total := by
    intro n
    induction n with
    | zero => intro day total; rfl
    | succ n ih =>
      intro day total
      rw [priceLoop, priceLoop, dailyPrice_of_sameHotel hsame hroom, ih]
  exact hloop _ _ _

/-! ### What the endpoints write -/

section

variable {s : Store} {token : Bearer} {h h' : ℤ}

theorem callerHotel_of_hotelAdmin {g : ℤ} (ha : hotelAdmin s token = .ok g)
    (hcaller : callerHotel s token = .ok h) : g = h := by
  simp only [hotelAdmin, bind_eq_ok, pure_eq_ok] at ha
  obtain ⟨user, huser, g', hg, _, _, rfl⟩ := ha
  have hsame : callerHotel s token = .ok g' := bind_eq_ok.mpr ⟨user, huser, hg⟩
  rw [hcaller] at hsame
  exact (Except.ok.inj hsame).symm

theorem sameHotel_of_committed {α : Type} {x : Except Error (α × Store)}
    (hx : ∀ r, x = .ok r → SameHotel h' s r.2) : SameHotel h' s (committed s x) := by
  cases x with
  | error e => exact .refl h' s
  | ok r => exact hx r rfl

theorem sameHotel_of_agree {ts : List TableName} {s' : Store} (ha : Agree ts s s')
    (hts : ts.all (fun n => n ∉ [.rooms, .bookings, .blackoutDates, .pricingRules]) = true) :
    SameHotel h' s s' := by
  have hout : ∀ n ∈ [TableName.rooms, .bookings, .blackoutDates, .pricingRules],
      s'.table n = s.table n := by
    intro n hn
    refine ha n fun hmem => ?_
    have hno := List.all_eq_true.mp hts n hmem
    exact of_decide_eq_true hno hn
  have hrooms : s'.rooms = s.rooms := hout .rooms (by decide)
  have hbookings : s'.bookings = s.bookings := hout .bookings (by decide)
  have hblackouts : s'.blackoutDates = s.blackoutDates := hout .blackoutDates (by decide)
  have hrules : s'.pricingRules = s.pricingRules := hout .pricingRules (by decide)
  refine ⟨?_, ?_, ?_, ?_⟩
  · rw [hrooms]
  · rw [hbookings]
  · rw [hblackouts]
  · rw [hrules]

variable (hcaller : callerHotel s token = .ok h) (hne : h' ≠ h)

include hcaller hne

theorem createRoom_sameHotel (data : RoomCreate) :
    SameHotel h' s (committed s (createRoom s token data)) := by
  refine sameHotel_of_committed fun r hr => ?_
  simp only [createRoom, hcaller, bind_eq_ok, pure_eq_ok, Except.ok.injEq] at hr
  obtain ⟨_, rfl, _, _, _, _, rfl⟩ := hr
  refine { SameHotel.refl h' s with rooms := Table.select_insert _ ?_ }
  exact decide_eq_false hne.symm

omit hcaller in
theorem writeRoom_sameHotel {roomId : ℤ} {data : RoomUpdate} {r : Room × Store}
    (hr : writeRoom s roomId h data = .ok r) : SameHotel h' s r.2 := by
  obtain ⟨room, changed, hget, hhotel, happly, rfl⟩ := writeRoom_eq_ok hr
  obtain ⟨_, hchanged⟩ := roomUpdate_apply happly
  refine { SameHotel.refl h' s with rooms := Table.select_update _ fun x hx hid => ?_ }
  obtain rfl := s.rooms.eq_of_key hx ((Table.get_eq_some _).mp hget).1
    (hid.trans ((Table.get_eq_some _).mp hget).2.symm)
  refine ⟨decide_eq_false ?_, decide_eq_false ?_⟩
  · rw [hhotel]
    exact hne.symm
  · show changed.hotelId ≠ h'
    rw [hchanged]
    exact hne.symm

theorem updateRoom_sameHotel (roomId : ℤ) (data : RoomUpdate) :
    SameHotel h' s (committed s (updateRoom s token roomId data)) := by
  refine sameHotel_of_committed fun r hr => ?_
  simp only [updateRoom, hcaller, bind_eq_ok, Except.ok.injEq] at hr
  obtain ⟨_, rfl, hw⟩ := hr
  exact writeRoom_sameHotel hne hw

theorem serveRoom_sameHotel (r : RoomRequest) : SameHotel h' s (serveRoom s token r) := by
  cases r with
  | create data => exact createRoom_sameHotel hcaller hne data
  | update roomId data => exact updateRoom_sameHotel hcaller hne roomId data
  | delete roomId =>
    show SameHotel h' s (committed s (deleteRoom s token roomId))
    rw [deleteRoom_eq]
    exact updateRoom_sameHotel hcaller hne roomId deactivation

theorem servePricing_sameHotel (env : Env) (r : PricingRequest) :
    SameHotel h' s (servePricing env s token r) := by
  cases r with
  | create data =>
    refine sameHotel_of_committed fun r hr => ?_
    simp only [createPricingRule, hcaller, bind_eq_ok, pure_eq_ok, Except.ok.injEq] at hr
    obtain ⟨_, rfl, _, _, _, _, _, _, rfl⟩ := hr
    refine { SameHotel.refl h' s with pricingRules := Table.select_insert _ ?_ }
    exact decide_eq_false hne.symm
  | delete ruleId =>
    refine sameHotel_of_committed fun r hr => ?_
    simp only [deletePricingRule, hcaller, bind_eq_ok, pure_eq_ok, Except.ok.injEq,
      found_eq_ok, Option.filter_eq_some_iff, decide_eq_true_eq] at hr
    obtain ⟨_, rfl, rule, ⟨hget, hhotel⟩, rfl⟩ := hr
    refine { SameHotel.refl h' s with
      pricingRules := Table.select_deleteWhere _ fun x hx hid => ?_ }
    obtain rfl := s.pricingRules.eq_of_key hx ((Table.get_eq_some _).mp hget).1
      (of_decide_eq_true hid)
    refine decide_eq_false ?_
    rw [hhotel]
    exact hne.symm

theorem serveBlackout_sameHotel (r : BlackoutRequest) :
    SameHotel h' s (serveBlackout s token r) := by
  cases r with
  | create data =>
    refine sameHotel_of_committed fun r hr => ?_
    simp only [createBlackout, bind_eq_ok, pure_eq_ok] at hr
    obtain ⟨g, ha, _, _, rfl⟩ := hr
    obtain rfl := callerHotel_of_hotelAdmin ha hcaller
    refine { SameHotel.refl h' s with blackoutDates := Table.select_insert _ ?_ }
    exact decide_eq_false hne.symm
  | delete blackoutId =>
    refine sameHotel_of_committed fun r hr => ?_
    simp only [deleteBlackout, bind_eq_ok, pure_eq_ok, found_eq_ok,
      Option.filter_eq_some_iff, decide_eq_true_eq] at hr
    obtain ⟨g, ha, row, ⟨hget, hhotel⟩, rfl⟩ := hr
    obtain rfl := callerHotel_of_hotelAdmin ha hcaller
    refine { SameHotel.refl h' s with
      blackoutDates := Table.select_deleteWhere _ fun x hx hid => ?_ }
    obtain rfl := s.blackoutDates.eq_of_key hx ((Table.get_eq_some _).mp hget).1
      (of_decide_eq_true hid)
    refine decide_eq_false ?_
    rw [hhotel]
    exact hne.symm

end

def Request.isInventory : Request → Bool
  | .roomType _ | .room _ | .pricing _ | .blackout _ => true
  | _ => false

theorem serve_sameHotel (ext : Ext) (env : Env) {s : Store} {token : Bearer} {h h' : ℤ}
    (hcaller : callerHotel s token = .ok h) (hne : h' ≠ h) {request : Request}
    (hreq : request.isInventory = true) : SameHotel h' s (serve ext env s token request) := by
  cases request with
  | roomType r =>
    exact sameHotel_of_agree (serve_agree ext env s token (.roomType r)) rfl
  | room r => exact serveRoom_sameHotel hcaller hne r
  | pricing r => exact servePricing_sameHotel hcaller hne env r
  | blackout r => exact serveBlackout_sameHotel hcaller hne r
  | _ => cases hreq

def roomsOf (s : Store) (h : ℤ) : List Room := s.rooms.select fun r => r.hotelId = h

/-- The inventory requests of a hotel's caller change neither the availability
of another hotel nor a price there. -/
theorem hotels_do_not_interfere (ext : Ext) (env : Env) (s : Store) (token : Bearer) (h : ℤ)
    (hcaller : callerHotel s token = .ok h) (request : Request)
    (hreq : request.isInventory = true) (h' : ℤ) (hne : h' ≠ h) (checkIn checkOut : ℤ) :
    getAvailableRooms (serve ext env s token request) h' checkIn checkOut =
      getAvailableRooms s h' checkIn checkOut ∧
    (roomsOf (serve ext env s token request) h').map (fun r =>
        (r, calculateBookingPrice (serve ext env s token request) r checkIn checkOut)) =
      (roomsOf s h').map fun r => (r, calculateBookingPrice s r checkIn checkOut) := by
  have hsame := serve_sameHotel ext env hcaller hne hreq
  refine ⟨getAvailableRooms_of_sameHotel hsame checkIn checkOut, ?_⟩
  have hrooms : roomsOf (serve ext env s token request) h' = roomsOf s h' := hsame.rooms
  rw [hrooms]
  refine List.map_congr_left fun r hr => ?_
  have hhotel : r.hotelId = h' := of_decide_eq_true ((Table.mem_select _).mp hr).2
  rw [calculateBookingPrice_of_sameHotel hsame hhotel]

/-- A second hotel, whose room is of a room type of the first. -/
def twoHotels : Store :=
  { sampleStore with
    hotels := sampleStore.hotels.insert
      ⟨2, "Plaza", none, none, none, none, none, none, none, none, none, 0, 0⟩
    rooms := sampleStore.rooms.insert ⟨2, 2, 1, none, none, some 80, none, true⟩ }

theorem hotels_do_not_interfere_blackout :
    getAvailableRooms (serve sampleExt (sampleEnv "") twoHotels (some 3)
        (.blackout (.create ⟨10, some 2, none⟩))) 2 10 12 =
      getAvailableRooms twoHotels 2 10 12 ∧
    (roomsOf (serve sampleExt (sampleEnv "") twoHotels (some 3)
        (.blackout (.create ⟨10, some 2, none⟩))) 2).map (fun r =>
        (r, calculateBookingPrice (serve sampleExt (sampleEnv "") twoHotels (some 3)
          (.blackout (.create ⟨10, some 2, none⟩))) r 10 12)) =
      (roomsOf twoHotels 2).map fun r => (r, calculateBookingPrice twoHotels r 10 12) :=
  hotels_do_not_interfere sampleExt (sampleEnv "") twoHotels (some 3) 1 (by decide +kernel) _ rfl 2
    (by decide) 10 12

end HotelMs
