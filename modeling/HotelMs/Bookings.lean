import HotelMs.Availability
import HotelMs.Pricing
import HotelMs.Dependencies

/-!
# Bookings

`repositories/booking_repository.py`, `api/v1/user/bookings.py` and
`api/v1/admin/bookings.py`. The Redis calls of the endpoints touch no table and
are left out here.
-/

namespace HotelMs

open Tables SqlTypes

/-! ### Repository -/

structure BookingData where
  hotelId : ℤ
  userId : ℤ
  roomId : ℤ
  checkIn : ℤ
  checkOut : ℤ
  totalPrice : ℚ
  deriving DecidableEq

def BookingData.row (data : BookingData) (now : ℤ) (price : ℚ) (id : ℤ) : Booking where
  id := id
  hotelId := data.hotelId
  userId := data.userId
  roomId := data.roomId
  checkIn := data.checkIn
  checkOut := data.checkOut
  adults := 1
  children := 0
  specialRequests := none
  totalPrice := price
  status := .pending
  createdAt := now

theorem BookingData.row_live (data : BookingData) (now : ℤ) (price : ℚ) (id : ℤ) :
    (data.row now price id).Live :=
  fun h => BookingStatus.noConfusion h

def createBooking (s : Store) (now : ℤ) (data : BookingData) : Except Error (Booking × Store) := do
  let price ← found (numeric 10 2 data.totalPrice) .data
  ensure ((s.hotels.get data.hotelId).isSome ∧ (s.users.get data.userId).isSome ∧
    (s.rooms.get data.roomId).isSome) .integrity
  let row := data.row now price s.bookings.next
  return (row, { s with bookings := s.bookings.insert row })

def getBookingById (s : Store) (bookingId : ℤ) (hotelId : Option ℤ) : Option Booking :=
  (s.bookings.get bookingId).filter fun b => hotelId.all fun h => b.hotelId = h

def setStatus (s : Store) (bookingId : ℤ) (status : BookingStatus) : Store :=
  { s with bookings := s.bookings.update bookingId fun b => { b with status } }

/-- The second query repeats the first with the row's own hotel, so it finds the
same row. -/
def updateBookingStatus (s : Store) (bookingId : ℤ) (status : BookingStatus) :
    Option (Booking × Store) := do
  let booking ← s.bookings.get bookingId
  let scopedBooking ← getBookingById s bookingId (some booking.hotelId)
  return ({ scopedBooking with status }, setStatus s bookingId status)

/-! ### Guest endpoints -/

/-- The reads of `create_booking_endpoint`, up to the row it will insert. -/
def createBookingRead (s : Store) (token : Bearer) (data : BookingCreate) :
    Except Error BookingData := do
  let user ← getCurrentUser s token
  let room ← found (s.rooms.get data.roomId) (.http 404 "Room not found")
  ensure (isAvailable s room.hotelId data.roomId data.checkIn data.checkOut = true)
    (.http 400 "Room is not available for the selected dates")
  return ⟨room.hotelId, user.id, data.roomId, data.checkIn, data.checkOut,
    calculateBookingPrice s room data.checkIn data.checkOut⟩

def createBookingEndpoint (env : Env) (s : Store) (token : Bearer) (data : BookingCreate) :
    Except Error (Booking × Store) := do
  let row ← createBookingRead s token data
  createBooking s env.now row

def getOwnBooking (s : Store) (userId bookingId : ℤ) : Except Error Booking := do
  let booking ← found (getBookingById s bookingId none) (.http 404 "Booking not found")
  ensure (booking.userId = userId) (.http 404 "Booking not found")
  return booking

def cancelBookingEndpoint (s : Store) (token : Bearer) (bookingId : ℤ) :
    Except Error (Booking × Store) := do
  let user ← getCurrentUser s token
  let _ ← getOwnBooking s user.id bookingId
  found (updateBookingStatus s bookingId .cancelled) (.http 404 "Booking not found")

/-! ### Front desk -/

def createNotification (s : Store) (now : ℤ) (userId : ℤ) (title message type : String) :
    Except Error (Notification × Store) := do
  ensure ((s.users.get userId).isSome = true) .integrity
  let row := {
    id := s.notifications.next, userId, title, message, type, isRead := false
    createdAt := now : Notification }
  return (row, { s with notifications := s.notifications.insert row })

structure BookingAdminResponse where
  id : ℤ
  hotelId : ℤ
  userId : ℤ
  roomId : ℤ
  checkIn : ℤ
  checkOut : ℤ
  totalPrice : ℚ
  status : BookingStatus
  guestName : Option String
  guestEmail : Option String
  deriving DecidableEq

def Booking.adminResponse (s : Store) (b : Booking) : BookingAdminResponse where
  id := b.id
  hotelId := b.hotelId
  userId := b.userId
  roomId := b.roomId
  checkIn := b.checkIn
  checkOut := b.checkOut
  totalPrice := b.totalPrice
  status := b.status
  guestName := (s.users.get b.userId).bind User.fullName
  guestEmail := (s.users.get b.userId).map User.email

def Booking.hasStatus (statusFilter : Option String) (b : Booking) : Bool :=
  statusFilter.all fun label => label = "" || b.status.toString = label

def listAllBookings (s : Store) (token : Bearer) (statusFilter : Option String) :
    Except Error (List BookingAdminResponse) := do
  let user ← getCurrentUser s token
  requireStaffOrAdmin user
  let bookings := s.bookings.select fun b =>
    (getOptionalHotel user).all (fun h => b.hotelId = h) && b.hasStatus statusFilter
  let newestFirst := bookings.insertionSort fun a b => b.createdAt ≤ a.createdAt
  return newestFirst.map (Booking.adminResponse s)

def scopedBooking (s : Store) (user : User) (bookingId : ℤ) : Except Error Booking :=
  found (getBookingById s bookingId (getOptionalHotel user)) (.http 404 "Booking not found")

/-- Commits the status, then the notification. -/
def checkInBooking (env : Env) (s : Store) (token : Bearer) (bookingId : ℤ) : Reply Unit :=
  let check : Except Error Booking := do
    let user ← getCurrentUser s token
    requireStaffOrAdmin user
    let booking ← scopedBooking s user bookingId
    ensure (booking.status = .confirmed) (.http 400
      ("Cannot check-in booking with status '" ++ booking.status.toString ++ "'"))
    return booking
  match check with
  | .error e => (.error e, s)
  | .ok booking =>
    let s₁ := ((updateBookingStatus s bookingId .completed).map Prod.snd).getD s
    match createNotification s₁ env.now booking.userId "Checked In"
      "You have been successfully checked in. Enjoy your stay!" "success" with
    | .error e => (.error e, s₁)
    | .ok (_, s₂) => (.ok (), s₂)

def checkOutBooking (env : Env) (s : Store) (token : Bearer) (bookingId : ℤ) :
    Except Error (Notification × Store) := do
  let user ← getCurrentUser s token
  requireStaffOrAdmin user
  let booking ← scopedBooking s user bookingId
  ensure (booking.status = .completed) (.http 400
    ("Cannot check-out booking with status '" ++ booking.status.toString ++
      "'. Guest must be checked in first."))
  createNotification s env.now booking.userId "Checked Out"
    "Thank you for staying with us! We hope to see you again." "info"

/-- The status override: any of the four statuses, whatever the booking's own. -/
def updateBooking (s : Store) (token : Bearer) (bookingId : ℤ) (newStatus : String) :
    Except Error (Booking × Store) := do
  let user ← getCurrentUser s token
  requireStaffOrAdmin user
  let status ← found (BookingStatus.ofString? newStatus) (.http 400
    "Invalid status. Choose from: \x7b'pending', 'confirmed', 'cancelled', 'completed'\x7d")
  found (updateBookingStatus s bookingId status) (.http 404 "Booking not found")

/-- The store as if this booking had never been. -/
def Store.without (s : Store) (bookingId : ℤ) : Store :=
  { s with bookings := s.bookings.delete bookingId }

/-! ### What the operations do to a booking -/

theorem createBookingRead_eq_ok {s : Store} {token : Bearer} {data : BookingCreate}
    {d : BookingData} :
    createBookingRead s token data = .ok d ↔ ∃ user room, getCurrentUser s token = .ok user ∧
      s.rooms.get data.roomId = some room ∧
      isAvailable s room.hotelId data.roomId data.checkIn data.checkOut = true ∧
      d = ⟨room.hotelId, user.id, data.roomId, data.checkIn, data.checkOut,
        calculateBookingPrice s room data.checkIn data.checkOut⟩ := by
  unfold createBookingRead
  simp only [bind_eq_ok, found_eq_ok, ensure_eq_ok, pure_eq_ok]
  constructor
  · intro h
    obtain ⟨user, hu, room, hr, _, ha, rfl⟩ := h
    exact ⟨user, room, hu, hr, ha, rfl⟩
  · intro h
    obtain ⟨user, room, hu, hr, ha, rfl⟩ := h
    exact ⟨user, hu, room, hr, (), ha, rfl⟩

theorem createBooking_eq_ok {s : Store} {now : ℤ} {data : BookingData} {r : Booking × Store} :
    createBooking s now data = .ok r ↔ ∃ price, numeric 10 2 data.totalPrice = some price ∧
      ((s.hotels.get data.hotelId).isSome ∧ (s.users.get data.userId).isSome ∧
        (s.rooms.get data.roomId).isSome) ∧
      r = (data.row now price s.bookings.next,
        { s with bookings := s.bookings.insert (data.row now price s.bookings.next) }) := by
  unfold createBooking
  simp only [bind_eq_ok, found_eq_ok, ensure_eq_ok, pure_eq_ok]
  constructor
  · intro h
    obtain ⟨price, hp, _, hfk, rfl⟩ := h
    exact ⟨price, hp, hfk, rfl⟩
  · intro h
    obtain ⟨price, hp, hfk, rfl⟩ := h
    exact ⟨price, hp, (), hfk, rfl⟩

theorem createBookingEndpoint_eq_ok {env : Env} {s : Store} {token : Bearer} {data : BookingCreate}
    {r : Booking × Store} :
    createBookingEndpoint env s token data = .ok r ↔ ∃ user room price, ∃ d : BookingData,
      getCurrentUser s token = .ok user ∧ s.rooms.get data.roomId = some room ∧
      isAvailable s room.hotelId data.roomId data.checkIn data.checkOut = true ∧
      d = ⟨room.hotelId, user.id, data.roomId, data.checkIn, data.checkOut,
        calculateBookingPrice s room data.checkIn data.checkOut⟩ ∧
      numeric 10 2 d.totalPrice = some price ∧
      ((s.hotels.get room.hotelId).isSome ∧ (s.users.get user.id).isSome) ∧
      r = (d.row env.now price s.bookings.next,
        { s with bookings := s.bookings.insert (d.row env.now price s.bookings.next) }) := by
  unfold createBookingEndpoint
  simp only [bind_eq_ok, createBookingRead_eq_ok, createBooking_eq_ok]
  constructor
  · intro h
    obtain ⟨d, ⟨user, room, hu, hr, ha, rfl⟩, price, hp, hfk, rfl⟩ := h
    exact ⟨user, room, price, _, hu, hr, ha, rfl, hp, ⟨hfk.1, hfk.2.1⟩, rfl⟩
  · intro h
    obtain ⟨user, room, price, d, hu, hr, ha, rfl, hp, hfk, rfl⟩ := h
    have hroom : (s.rooms.get data.roomId).isSome = true := by
      rw [hr]
      rfl
    exact ⟨_, ⟨user, room, hu, hr, ha, rfl⟩, price, hp, ⟨hfk.1, hfk.2, hroom⟩, rfl⟩

theorem getBookingById_none (s : Store) (bookingId : ℤ) :
    getBookingById s bookingId none = s.bookings.get bookingId := by
  unfold getBookingById
  cases s.bookings.get bookingId <;> rfl

theorem getBookingById_eq_some {s : Store} {bookingId : ℤ} {hotelId : Option ℤ} {b : Booking} :
    getBookingById s bookingId hotelId = some b ↔
      s.bookings.get bookingId = some b ∧ ∀ h ∈ hotelId, b.hotelId = h := by
  unfold getBookingById
  cases hotelId with
  | none => simp
  | some h => simp

theorem updateBookingStatus_of_get {s : Store} {bookingId : ℤ} {status : BookingStatus}
    {b : Booking} (hb : s.bookings.get bookingId = some b) :
    updateBookingStatus s bookingId status =
      some ({ b with status }, setStatus s bookingId status) := by
  have hscoped : getBookingById s bookingId (some b.hotelId) = some b :=
    getBookingById_eq_some.mpr ⟨hb, by simp⟩
  unfold updateBookingStatus
  rw [hb]
  simp only [Option.bind_eq_bind, Option.bind_some, hscoped, Option.pure_def]

theorem updateBookingStatus_eq_some {s : Store} {bookingId : ℤ} {status : BookingStatus}
    {r : Booking × Store} :
    updateBookingStatus s bookingId status = some r ↔ ∃ b, s.bookings.get bookingId = some b ∧
      r = ({ b with status }, setStatus s bookingId status) := by
  cases hb : s.bookings.get bookingId with
  | none => simp [updateBookingStatus, hb]
  | some b =>
    rw [updateBookingStatus_of_get hb]
    simp [eq_comm]

theorem getOwnBooking_eq_ok {s : Store} {userId bookingId : ℤ} {b : Booking} :
    getOwnBooking s userId bookingId = .ok b ↔
      s.bookings.get bookingId = some b ∧ b.userId = userId := by
  unfold getOwnBooking
  simp only [bind_eq_ok, found_eq_ok, ensure_eq_ok, pure_eq_ok, getBookingById_none]
  constructor
  · intro h
    obtain ⟨b', hb, _, hown, rfl⟩ := h
    exact ⟨hb, hown⟩
  · intro h
    exact ⟨b, h.1, (), h.2, rfl⟩

theorem cancelBookingEndpoint_eq_ok {s : Store} {token : Bearer} {bookingId : ℤ}
    {r : Booking × Store} :
    cancelBookingEndpoint s token bookingId = .ok r ↔ ∃ user b,
      getCurrentUser s token = .ok user ∧ s.bookings.get bookingId = some b ∧
      b.userId = user.id ∧
      r = ({ b with status := .cancelled }, setStatus s bookingId .cancelled) := by
  unfold cancelBookingEndpoint
  simp only [bind_eq_ok, found_eq_ok, getOwnBooking_eq_ok, updateBookingStatus_eq_some]
  constructor
  · intro h
    obtain ⟨user, hu, b, ⟨hb, hown⟩, b', hb', rfl⟩ := h
    obtain rfl := Option.some.inj (hb.symm.trans hb')
    exact ⟨user, b, hu, hb, hown, rfl⟩
  · intro h
    obtain ⟨user, b, hu, hb, hown, rfl⟩ := h
    exact ⟨user, hu, b, ⟨hb, hown⟩, b, hb, rfl⟩

theorem updateBooking_eq_ok {s : Store} {token : Bearer} {bookingId : ℤ} {newStatus : String}
    {r : Booking × Store} :
    updateBooking s token bookingId newStatus = .ok r ↔ ∃ user status b,
      getCurrentUser s token = .ok user ∧ requireStaffOrAdmin user = .ok () ∧
      BookingStatus.ofString? newStatus = some status ∧ s.bookings.get bookingId = some b ∧
      r = ({ b with status }, setStatus s bookingId status) := by
  unfold updateBooking
  simp only [bind_eq_ok, found_eq_ok, updateBookingStatus_eq_some]
  constructor
  · intro h
    obtain ⟨user, hu, _, hrole, status, hs, b, hb, rfl⟩ := h
    exact ⟨user, status, b, hu, hrole, hs, hb, rfl⟩
  · intro h
    obtain ⟨user, status, b, hu, hrole, hs, hb, rfl⟩ := h
    exact ⟨user, hu, (), hrole, status, hs, b, hb, rfl⟩

theorem createBookingEndpoint_bookings (env : Env) (s : Store) (token : Bearer)
    (data : BookingCreate) :
    (committed s (createBookingEndpoint env s token data)).bookings = s.bookings ∨
      ∃ b room, s.rooms.get b.roomId = some room ∧ b.hotelId = room.hotelId ∧
        isAvailable s room.hotelId b.roomId b.checkIn b.checkOut = true ∧
        b.id = s.bookings.next ∧ b.status = .pending ∧
        (committed s (createBookingEndpoint env s token data)).bookings = s.bookings.insert b := by
  cases h : createBookingEndpoint env s token data with
  | error e => exact Or.inl rfl
  | ok r =>
    obtain ⟨user, room, price, d, _, hroom, havail, rfl, _, _, rfl⟩ :=
      createBookingEndpoint_eq_ok.mp h
    refine Or.inr ⟨_, room, hroom, rfl, ?_, rfl, rfl, rfl⟩
    exact havail

theorem cancelBookingEndpoint_bookings (s : Store) (token : Bearer) (bookingId : ℤ) :
    (committed s (cancelBookingEndpoint s token bookingId)).bookings = s.bookings ∨
      ∃ b, s.bookings.get bookingId = some b ∧
        (committed s (cancelBookingEndpoint s token bookingId)).bookings =
          (setStatus s bookingId .cancelled).bookings := by
  cases h : cancelBookingEndpoint s token bookingId with
  | error e => exact Or.inl rfl
  | ok r =>
    obtain ⟨_, b, _, hb, _, rfl⟩ := cancelBookingEndpoint_eq_ok.mp h
    exact Or.inr ⟨b, hb, rfl⟩

theorem checkInBooking_bookings (env : Env) (s : Store) (token : Bearer) (bookingId : ℤ) :
    (checkInBooking env s token bookingId).2.bookings = s.bookings ∨
      ∃ b, s.bookings.get bookingId = some b ∧ b.status = .confirmed ∧
        (checkInBooking env s token bookingId).2.bookings =
          (setStatus s bookingId .completed).bookings := by
  unfold checkInBooking
  simp only
  split
  · exact Or.inl rfl
  next booking hcheck =>
    simp only [bind_eq_ok, ensure_eq_ok, pure_eq_ok, scopedBooking, found_eq_ok,
      getBookingById_eq_some] at hcheck
    obtain ⟨user, _, _, _, b, ⟨hb, _⟩, _, hconfirmed, rfl⟩ := hcheck
    refine Or.inr ⟨b, hb, hconfirmed, ?_⟩
    rw [updateBookingStatus_of_get hb]
    simp only [Option.map_some, Option.getD_some]
    split
    · rfl
    next hn =>
      simp only [createNotification, bind_eq_ok, pure_eq_ok] at hn
      obtain ⟨_, _, hn⟩ := hn
      cases hn
      rfl

end HotelMs
