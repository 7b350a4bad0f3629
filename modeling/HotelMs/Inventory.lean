import HotelMs.Dependencies

/-!
# Hotels, room types, rooms, pricing rules, blackout dates

`api/v1/admin/{hotels,room_types,rooms,pricing,blackout_dates}.py` and their
repositories. Only some of these routers ask for a role: `hotels` takes no
caller at all, `rooms` and `pricing` only a caller with a hotel.
-/

namespace HotelMs

open Tables SqlTypes

/-! ### Hotels -/

/-- `none` for a null, and the error when the value does not fit the column. -/
def numeric? (p s : ℕ) : Option ℚ → Except Error (Option ℚ)
  | none => .ok none
  | some q => do return some (← found (numeric p s q) .data)

def varchar? (n : ℕ) : Option String → Except Error (Option String)
  | none => .ok none
  | some v => do return some (← found (varchar n v) .data)

def Hotel.stored (h : Hotel) : Except Error Hotel := do
  let countryCode ← varchar? 5 h.countryCode
  let latitude ← numeric? 10 6 h.latitude
  let longitude ← numeric? 10 6 h.longitude
  let rating ← found (numeric 3 2 h.rating) .data
  return { h with countryCode, latitude, longitude, rating }

def HotelCreate.row (data : HotelCreate) (now id : ℤ) : Hotel where
  id := id
  name := data.name
  description := data.description
  address := data.address
  city := data.city
  country := data.country
  countryCode := data.countryCode
  phone := data.phone
  email := data.email
  latitude := data.latitude
  longitude := data.longitude
  rating := data.rating
  createdAt := now

def createHotel (env : Env) (s : Store) (data : HotelCreate) : Except Error (Hotel × Store) := do
  let row ← (data.row env.now s.hotels.next).stored
  return (row, { s with hotels := s.hotels.insert row })

-- a field that was not sent keeps its value, a null replaces it
def HotelUpdate.apply (data : HotelUpdate) (h : Hotel) : Except Error Hotel := do
  let name ← found (data.name.getD (some h.name)) .integrity
  let rating ← found (data.rating.getD (some h.rating)) .integrity
  return { h with
    name, rating
    description := data.description.getD h.description
    address := data.address.getD h.address
    city := data.city.getD h.city
    country := data.country.getD h.country
    countryCode := data.countryCode.getD h.countryCode
    phone := data.phone.getD h.phone
    email := data.email.getD h.email
    latitude := data.latitude.getD h.latitude
    longitude := data.longitude.getD h.longitude }

def hotelNotFound : Error := .http 404 "Hotel not found"

def updateHotel (s : Store) (hotelId : ℤ) (data : HotelUpdate) :
    Except Error (Hotel × Store) := do
  let hotel ← found (s.hotels.get hotelId) hotelNotFound
  let changed ← data.apply hotel
  let stored ← changed.stored
  return (stored,
    { s with hotels := s.hotels.update hotelId fun _ => stored })

/-- No row outside the cascades of `ondelete="CASCADE"` references the hotel or
one of its room types. -/
def hotelUnreferenced (s : Store) (hotelId : ℤ) : Bool :=
  let dropped := fun typeId => s.roomTypes.any fun t => t.id = typeId && t.hotelId = hotelId
  !s.hotelImages.any (fun i => i.hotelId = hotelId) &&
    !s.users.any (fun u => u.hotelId = some hotelId) &&
    !s.bookings.any (fun b => b.hotelId = hotelId) &&
    !s.blackoutDates.any (fun d => d.hotelId = hotelId) &&
    !s.reviews.any (fun r => r.hotelId = hotelId) &&
    !s.wishlistItems.any (fun w => w.hotelId = some hotelId) &&
    !s.rooms.any (fun r => r.hotelId = hotelId || dropped r.roomTypeId) &&
    !s.pricingRules.any (fun r => r.hotelId ≠ hotelId && dropped r.roomTypeId)

def deleteHotel (s : Store) (hotelId : ℤ) : Except Error (Unit × Store) := do
  let hotel ← found (s.hotels.get hotelId) hotelNotFound
  ensure (s.hotelFacilities.any (fun f => f.1 = hotel.id) = false) .data
  ensure (hotelUnreferenced s hotel.id = true) .integrity
  return ((), { s with
    hotels := s.hotels.delete hotel.id
    roomTypes := s.roomTypes.deleteWhere fun t => t.hotelId = hotel.id
    pricingRules := s.pricingRules.deleteWhere fun r => r.hotelId = hotel.id })

theorem Hotel.stored_id {h row : Hotel} (hs : h.stored = .ok row) : row.id = h.id := by
  simp only [Hotel.stored, bind_eq_ok, pure_eq_ok] at hs
  obtain ⟨_, _, _, _, _, _, _, _, rfl⟩ := hs
  rfl

theorem HotelUpdate.apply_id {data : HotelUpdate} {h changed : Hotel}
    (ha : data.apply h = .ok changed) : changed.id = h.id := by
  simp only [HotelUpdate.apply, bind_eq_ok, pure_eq_ok] at ha
  obtain ⟨_, _, _, _, rfl⟩ := ha
  rfl

theorem createHotel_eq_ok {env : Env} {s : Store} {data : HotelCreate} {r : Hotel × Store} :
    createHotel env s data = .ok r ↔ ∃ row, (data.row env.now s.hotels.next).stored = .ok row ∧
      r = (row, { s with hotels := s.hotels.insert row }) := by
  simp only [createHotel, bind_eq_ok, pure_eq_ok]
  constructor
  · intro h
    obtain ⟨row, hs, rfl⟩ := h
    exact ⟨row, hs, rfl⟩
  · intro h
    obtain ⟨row, hs, rfl⟩ := h
    exact ⟨row, hs, rfl⟩

theorem updateHotel_eq_ok {s : Store} {hotelId : ℤ} {data : HotelUpdate} {r : Hotel × Store} :
    updateHotel s hotelId data = .ok r ↔ ∃ hotel changed row, s.hotels.get hotelId = some hotel ∧
      data.apply hotel = .ok changed ∧ changed.stored = .ok row ∧
      r = (row, { s with hotels := s.hotels.update hotelId fun _ => row }) := by
  simp only [updateHotel, bind_eq_ok, found_eq_ok, pure_eq_ok]
  constructor
  · intro h
    obtain ⟨hotel, hg, changed, ha, row, hs, rfl⟩ := h
    exact ⟨hotel, changed, row, hg, ha, hs, rfl⟩
  · intro h
    obtain ⟨hotel, changed, row, hg, ha, hs, rfl⟩ := h
    exact ⟨hotel, hg, changed, ha, row, hs, rfl⟩

theorem deleteHotel_eq_ok {s : Store} {hotelId : ℤ} {r : Unit × Store} :
    deleteHotel s hotelId = .ok r ↔ (∃ hotel, s.hotels.get hotelId = some hotel) ∧
      s.hotelFacilities.any (fun f => f.1 = hotelId) = false ∧
      hotelUnreferenced s hotelId = true ∧ r = ((), { s with
        hotels := s.hotels.delete hotelId
        roomTypes := s.roomTypes.deleteWhere fun t => t.hotelId = hotelId
        pricingRules := s.pricingRules.deleteWhere fun r => r.hotelId = hotelId }) := by
  simp only [deleteHotel, bind_eq_ok, found_eq_ok, ensure_eq_ok, pure_eq_ok]
  constructor
  · intro h
    obtain ⟨hotel, hg, _, hf, _, hu, rfl⟩ := h
    obtain ⟨_, rfl⟩ := (Table.get_eq_some _).mp hg
    exact ⟨⟨hotel, hg⟩, hf, hu, rfl⟩
  · intro h
    obtain ⟨⟨hotel, hg⟩, hf, hu, rfl⟩ := h
    obtain ⟨_, rfl⟩ := (Table.get_eq_some _).mp hg
    exact ⟨hotel, hg, (), hf, (), hu, rfl⟩

/-! ### Room types -/

/-- The dependencies of the routers that ask for a hotel and an admin role. -/
def hotelAdmin (s : Store) (token : Bearer) : Except Error ℤ := do
  let user ← getCurrentUser s token
  let hotelId ← getCurrentHotel user
  requireAdmin user
  return hotelId

def createRoomType (s : Store) (token : Bearer) (data : RoomTypeCreate) :
    Except Error (RoomType × Store) := do
  let hotelId ← hotelAdmin s token
  ensure ((s.hotels.get hotelId).isSome = true) .integrity
  let row := {
    id := s.roomTypes.next, hotelId, name := data.name, description := data.description : RoomType }
  return (row, { s with roomTypes := s.roomTypes.insert row })

def scopedRoomType (s : Store) (typeId hotelId : ℤ) : Except Error RoomType :=
  found ((s.roomTypes.get typeId).filter fun t => t.hotelId = hotelId)
    (.http 404 "Room type not found")

def RoomTypeCreate.apply (data : RoomTypeCreate) (t : RoomType) : RoomType :=
  { t with name := data.name, description := data.description.or t.description }

def updateRoomType (s : Store) (token : Bearer) (typeId : ℤ) (data : RoomTypeCreate) :
    Except Error (RoomType × Store) := do
  let hotelId ← hotelAdmin s token
  let type ← scopedRoomType s typeId hotelId
  return (data.apply type, { s with roomTypes := s.roomTypes.update typeId data.apply })

def deleteRoomType (s : Store) (token : Bearer) (typeId : ℤ) : Except Error (Unit × Store) := do
  let hotelId ← hotelAdmin s token
  let type ← scopedRoomType s typeId hotelId
  ensure (s.rooms.any (fun r => r.roomTypeId = type.id) = false ∧
    s.pricingRules.any (fun r => r.roomTypeId = type.id) = false) .integrity
  return ((), { s with roomTypes := s.roomTypes.delete type.id })

/-! ### Rooms -/

def callerHotel (s : Store) (token : Bearer) : Except Error ℤ := do
  let user ← getCurrentUser s token
  getCurrentHotel user

/-- `hotel_id` of the body is overwritten with the caller's. -/
def createRoom (s : Store) (token : Bearer) (data : RoomCreate) : Except Error (Room × Store) := do
  let hotelId ← callerHotel s token
  let basePrice ← numeric? 10 2 data.basePrice
  ensure ((s.hotels.get hotelId).isSome ∧ (s.roomTypes.get data.roomTypeId).isSome) .integrity
  let row := {
    id := s.rooms.next, hotelId, roomTypeId := data.roomTypeId, roomNumber := data.roomNumber
    capacity := data.capacity, basePrice, description := data.description
    isActive := data.isActive : Room }
  return (row, { s with rooms := s.rooms.insert row })

theorem createRoom_eq_ok {s : Store} {token : Bearer} {data : RoomCreate} {r : Room × Store} :
    createRoom s token data = .ok r ↔ ∃ hotelId basePrice row, callerHotel s token = .ok hotelId ∧
      numeric? 10 2 data.basePrice = .ok basePrice ∧
      ((s.hotels.get hotelId).isSome ∧ (s.roomTypes.get data.roomTypeId).isSome) ∧
      row = ⟨s.rooms.next, hotelId, data.roomTypeId, data.roomNumber, data.capacity, basePrice,
        data.description, data.isActive⟩ ∧
      r = (row, { s with rooms := s.rooms.insert row }) := by
  simp only [createRoom, bind_eq_ok, ensure_eq_ok, pure_eq_ok]
  constructor
  · intro h
    obtain ⟨hotelId, hc, basePrice, hp, _, hfk, rfl⟩ := h
    exact ⟨hotelId, basePrice, _, hc, hp, hfk, rfl, rfl⟩
  · intro h
    obtain ⟨hotelId, basePrice, _, hc, hp, hfk, rfl, rfl⟩ := h
    exact ⟨hotelId, hc, basePrice, hp, (), hfk, rfl⟩

def RoomUpdate.apply (data : RoomUpdate) (hotelId : ℤ) (r : Room) : Except Error Room := do
  let basePrice ← numeric? 10 2 (data.basePrice.getD r.basePrice)
  let roomTypeId ← found (data.roomTypeId.getD (some r.roomTypeId)) .integrity
  let isActive ← found (data.isActive.getD (some r.isActive)) .integrity
  return { r with
    hotelId, roomTypeId, isActive, basePrice
    roomNumber := data.roomNumber.getD r.roomNumber
    capacity := data.capacity.getD r.capacity
    description := data.description.getD r.description }

def roomNotFound : Error := .http 404 "Room not found"

def writeRoom (s : Store) (roomId hotelId : ℤ) (data : RoomUpdate) :
    Except Error (Room × Store) := do
  let room ← found ((s.rooms.get roomId).filter fun r => r.hotelId = hotelId) roomNotFound
  let changed ← data.apply hotelId room
  ensure ((s.roomTypes.get changed.roomTypeId).isSome = true) .integrity
  return (changed, { s with rooms := s.rooms.update roomId fun _ => changed })

theorem roomUpdate_apply {data : RoomUpdate} {hotelId : ℤ} {r r' : Room}
    (h : data.apply hotelId r = .ok r') : r'.id = r.id ∧ r'.hotelId = hotelId := by
  simp only [RoomUpdate.apply, bind_eq_ok, pure_eq_ok] at h
  obtain ⟨_, _, _, _, _, _, rfl⟩ := h
  exact ⟨rfl, rfl⟩

theorem writeRoom_eq_ok {s : Store} {roomId hotelId : ℤ} {data : RoomUpdate} {r : Room × Store}
    (h : writeRoom s roomId hotelId data = .ok r) :
    ∃ room changed, s.rooms.get roomId = some room ∧ room.hotelId = hotelId ∧
      data.apply hotelId room = .ok changed ∧
      r = (changed, { s with rooms := s.rooms.update roomId fun _ => changed }) := by
  simp only [writeRoom, bind_eq_ok, found_eq_ok, ensure_eq_ok, pure_eq_ok,
    Option.filter_eq_some_iff, decide_eq_true_eq] at h
  obtain ⟨room, ⟨hget, hhotel⟩, changed, happly, _, _, rfl⟩ := h
  exact ⟨room, changed, hget, hhotel, happly, rfl⟩

def updateRoom (s : Store) (token : Bearer) (roomId : ℤ) (data : RoomUpdate) :
    Except Error (Room × Store) := do
  let hotelId ← callerHotel s token
  writeRoom s roomId hotelId data

theorem updateRoom_eq_ok {s : Store} {token : Bearer} {roomId : ℤ} {data : RoomUpdate}
    {r : Room × Store} :
    updateRoom s token roomId data = .ok r ↔ ∃ hotelId room changed,
      callerHotel s token = .ok hotelId ∧ s.rooms.get roomId = some room ∧
      room.hotelId = hotelId ∧ data.apply hotelId room = .ok changed ∧
      (s.roomTypes.get changed.roomTypeId).isSome = true ∧
      r = (changed, { s with rooms := s.rooms.update roomId fun _ => changed }) := by
  simp only [updateRoom, writeRoom, bind_eq_ok, found_eq_ok, ensure_eq_ok, pure_eq_ok,
    Option.filter_eq_some_iff, decide_eq_true_eq]
  constructor
  · intro h
    obtain ⟨hotelId, hc, room, ⟨hg, hhotel⟩, changed, happly, _, hfk, rfl⟩ := h
    exact ⟨hotelId, room, changed, hc, hg, hhotel, happly, hfk, rfl⟩
  · intro h
    obtain ⟨hotelId, room, changed, hc, hg, hhotel, happly, hfk, rfl⟩ := h
    exact ⟨hotelId, hc, room, ⟨hg, hhotel⟩, changed, happly, (), hfk, rfl⟩

def deactivation : RoomUpdate := ⟨none, none, none, none, none, none, some (some false)⟩

def deleteRoom (s : Store) (token : Bearer) (roomId : ℤ) : Except Error (Room × Store) := do
  let hotelId ← callerHotel s token
  writeRoom s roomId hotelId deactivation

/-- Rooms are deleted by an update that deactivates them. -/
theorem deleteRoom_eq (s : Store) (token : Bearer) (roomId : ℤ) :
    deleteRoom s token roomId = updateRoom s token roomId deactivation := rfl

theorem deactivation_isActive {hotelId : ℤ} {room changed : Room}
    (h : deactivation.apply hotelId room = .ok changed) : changed.isActive = false := by
  simp only [RoomUpdate.apply, deactivation, Option.getD_some, bind_eq_ok, found_eq_ok,
    pure_eq_ok] at h
  obtain ⟨_, _, _, _, _, hoff, rfl⟩ := h
  exact (Option.some.inj hoff).symm

/-! ### Pricing rules -/

def createPricingRule (env : Env) (s : Store) (token : Bearer) (data : PricingRuleCreate) :
    Except Error (PricingRule × Store) := do
  let hotelId ← callerHotel s token
  let price ← numeric? 10 2 data.price
  let multiplier ← numeric? 6 3 data.multiplier
  ensure ((s.hotels.get hotelId).isSome ∧ (s.roomTypes.get data.roomTypeId).isSome) .integrity
  let row := {
    id := s.pricingRules.next, hotelId, roomTypeId := data.roomTypeId, startDate := data.startDate
    endDate := data.endDate, price, multiplier, priority := data.priority
    createdAt := env.now : PricingRule }
  return (row, { s with pricingRules := s.pricingRules.insert row })

def deletePricingRule (s : Store) (token : Bearer) (ruleId : ℤ) :
    Except Error (Unit × Store) := do
  let hotelId ← callerHotel s token
  let rule ← found ((s.pricingRules.get ruleId).filter fun r => r.hotelId = hotelId)
    (.http 404 "Pricing rule not found")
  return ((), { s with pricingRules := s.pricingRules.delete rule.id })

/-! ### Blackout dates -/

def createBlackout (s : Store) (token : Bearer) (data : BlackoutCreate) :
    Except Error (BlackoutDate × Store) := do
  let hotelId ← hotelAdmin s token
  ensure ((s.hotels.get hotelId).isSome = true ∧
    ∀ r ∈ data.roomId, (s.rooms.get r).isSome = true) .integrity
  let row := {
    id := s.blackoutDates.next, hotelId, roomId := data.roomId, date := data.date
    reason := data.reason : BlackoutDate }
  return (row, { s with blackoutDates := s.blackoutDates.insert row })

def deleteBlackout (s : Store) (token : Bearer) (blackoutId : ℤ) :
    Except Error (Unit × Store) := do
  let hotelId ← hotelAdmin s token
  let row ← found ((s.blackoutDates.get blackoutId).filter fun d => d.hotelId = hotelId)
    (.http 404 "Blackout date not found")
  return ((), { s with blackoutDates := s.blackoutDates.delete row.id })

theorem createBlackout_eq_ok {s : Store} {token : Bearer} {data : BlackoutCreate}
    {r : BlackoutDate × Store} :
    createBlackout s token data = .ok r ↔ ∃ hotelId row, hotelAdmin s token = .ok hotelId ∧
      ((s.hotels.get hotelId).isSome = true ∧
        ∀ r ∈ data.roomId, (s.rooms.get r).isSome = true) ∧
      row = ⟨s.blackoutDates.next, hotelId, data.roomId, data.date, data.reason⟩ ∧
      r = (row, { s with blackoutDates := s.blackoutDates.insert row }) := by
  simp only [createBlackout, bind_eq_ok, ensure_eq_ok, pure_eq_ok]
  constructor
  · intro h
    obtain ⟨hotelId, ha, _, hfk, rfl⟩ := h
    exact ⟨hotelId, _, ha, hfk, rfl, rfl⟩
  · intro h
    obtain ⟨hotelId, _, ha, hfk, rfl, rfl⟩ := h
    exact ⟨hotelId, ha, (), hfk, rfl⟩

theorem deleteBlackout_eq_ok {s : Store} {token : Bearer} {blackoutId : ℤ} {r : Unit × Store} :
    deleteBlackout s token blackoutId = .ok r ↔ ∃ hotelId d, hotelAdmin s token = .ok hotelId ∧
      s.blackoutDates.get blackoutId = some d ∧ d.hotelId = hotelId ∧
      r = ((), { s with blackoutDates := s.blackoutDates.delete d.id }) := by
  simp only [deleteBlackout, bind_eq_ok, found_eq_ok, pure_eq_ok, Option.filter_eq_some_iff,
    decide_eq_true_eq]
  constructor
  · intro h
    obtain ⟨hotelId, ha, d, ⟨hd, hhotel⟩, rfl⟩ := h
    exact ⟨hotelId, d, ha, hd, hhotel, rfl⟩
  · intro h
    obtain ⟨hotelId, d, ha, hd, hhotel, rfl⟩ := h
    exact ⟨hotelId, ha, d, ⟨hd, hhotel⟩, rfl⟩

end HotelMs
