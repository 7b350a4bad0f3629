import HotelMs.AvailabilityCache
import HotelMs.Frame
import HotelMs.Lib.Runs

/-!
# Does a cache hit return what the database would

Only creating and cancelling a booking invalidate. The other operations that
change availability leave the cache alone, so each of them keeps it coherent
only where no cached window depends on what it changes.
-/

namespace HotelMs

open Tables ReadThrough Runs

/-! ### When a room is vacant -/

/-- No booking and no blackout date of the hotel keeps the room in the window. -/
def Vacant (s : Store) (k : AvailKey) (roomId : ℤ) : Prop :=
  checkBlackoutDates s k.hotelId roomId k.checkIn k.checkOut = false ∧
    ∀ b ∈ s.bookings.rows, b.roomId = roomId →
      b.overlapping k.hotelId k.checkIn k.checkOut = false

theorem mem_availableIds {s : Store} {k : AvailKey} {id : ℤ} :
    id ∈ availableIds s k ↔ ∃ r ∈ s.rooms.rows, r.id = id ∧ r.isActive = true ∧
      r.hotelId = k.hotelId ∧ Vacant s k id := by
  simp only [availableIds, List.mem_map, mem_getAvailableRooms]
  constructor
  · intro h
    obtain ⟨r, ⟨hr, hhotel, hactive, hfree⟩, rfl⟩ := h
    exact ⟨r, hr, rfl, hactive, hhotel, hfree⟩
  · intro h
    obtain ⟨r, hr, rfl, hactive, hhotel, hfree⟩ := h
    exact ⟨r, ⟨hr, hhotel, hactive, hfree⟩, rfl⟩

theorem mem_cachedRooms {s : Store} {ids : List ℤ} {id : ℤ} :
    id ∈ (cachedRooms s ids).map Room.id ↔
      ∃ r ∈ s.rooms.rows, r.id = id ∧ r.isActive = true ∧ id ∈ ids := by
  simp only [cachedRooms, List.mem_map, Table.mem_select, Bool.and_eq_true, List.contains_iff_mem]
  constructor
  · intro h
    obtain ⟨r, ⟨hr, hmem, hactive⟩, rfl⟩ := h
    exact ⟨r, hr, rfl, hactive, hmem⟩
  · intro h
    obtain ⟨r, hr, rfl, hactive, hmem⟩ := h
    exact ⟨r, ⟨hr, hmem, hactive⟩, rfl⟩

/-- A hit on the ids shows the rooms `get_available_rooms` finds. -/
def Fits (s : Store) (k : AvailKey) (ids : List ℤ) : Prop :=
  ∀ id, id ∈ (cachedRooms s ids).map Room.id ↔ id ∈ availableIds s k

theorem fits_iff {s : Store} {k : AvailKey} {ids : List ℤ} :
    Fits s k ids ↔ ∀ r ∈ s.rooms.rows, r.isActive = true →
      (r.id ∈ ids ↔ r.hotelId = k.hotelId ∧ Vacant s k r.id) := by
  constructor
  · intro h r hr hactive
    have hid := h r.id
    rw [mem_cachedRooms, mem_availableIds] at hid
    constructor
    · intro hmem
      obtain ⟨r', hr', he, _, hhotel, hfree⟩ := hid.mp ⟨r, hr, rfl, hactive, hmem⟩
      rw [s.rooms.eq_of_key hr' hr he] at hhotel
      exact ⟨hhotel, hfree⟩
    · intro hfree
      obtain ⟨_, _, _, _, hmem⟩ := hid.mpr ⟨r, hr, rfl, hactive, hfree⟩
      exact hmem
  · intro h id
    rw [mem_cachedRooms, mem_availableIds]
    constructor
    · intro hc
      obtain ⟨r, hr, rfl, hactive, hmem⟩ := hc
      exact ⟨r, hr, rfl, hactive, (h r hr hactive).mp hmem⟩
    · intro ha
      obtain ⟨r, hr, rfl, hactive, hfree⟩ := ha
      exact ⟨r, hr, rfl, hactive, (h r hr hactive).mpr hfree⟩

def World.Coherent (w : World) : Prop := ReadThrough.Coherent Fits w.store w.cache

/-- While the rooms stay, an entry goes on to fit when each active room of its
hotel is as vacant as before. -/
theorem coherent_write_iff {w : World} (h : w.Coherent) {s : Store} {c : AvailCache}
    (hrooms : s.rooms = w.store.rooms) (hsub : Sub c w.cache) :
    (World.mk s c).Coherent ↔ ∀ k ids, c k = some ids → ∀ r ∈ w.store.rooms.rows,
      r.isActive = true → r.hotelId = k.hotelId →
      (Vacant s k r.id ↔ Vacant w.store k r.id) := by
  refine ReadThrough.Coherent.write_iff h hsub (fun k _ => ∀ r ∈ w.store.rooms.rows,
    r.isActive = true → r.hotelId = k.hotelId → (Vacant s k r.id ↔ Vacant w.store k r.id)) ?_
  intro k ids _ hfits
  rw [fits_iff] at hfits
  rw [fits_iff, hrooms]
  constructor
  · intro hafter r hr hactive hhotel
    have hb := hfits r hr hactive
    have ha := hafter r hr hactive
    simp only [hhotel, true_and] at hb ha
    exact ha.symm.trans hb
  · intro hsame r hr hactive
    rw [hfits r hr hactive]
    exact and_congr_right fun hhotel => (hsame r hr hactive hhotel).symm

theorem coherent_of_agree {w : World} (h : w.Coherent) {s : Store} {c : AvailCache}
    (hrooms : s.rooms = w.store.rooms) (hbookings : s.bookings = w.store.bookings)
    (hblackouts : s.blackoutDates = w.store.blackoutDates) (hsub : Sub c w.cache) :
    (World.mk s c).Coherent := by
  rw [coherent_write_iff h hrooms hsub]
  intro k ids _ r _ _ _
  unfold Vacant checkBlackoutDates
  rw [hbookings, hblackouts]

/-- A refused request leaves the cache right, so only one that goes through is judged. -/
theorem committed_coherent_iff {w : World} (h : w.Coherent) {α : Type}
    {x : Except Error (α × Store)} {P : Prop} (hgoes : P → ∃ r, x = .ok r)
    (hok : ∀ r, x = .ok r → ((World.mk r.2 w.cache).Coherent ↔ ¬P)) :
    (World.mk (committed w.store x) w.cache).Coherent ↔ ¬P := by
  cases x with
  | error e =>
    refine iff_of_true h fun hs => ?_
    obtain ⟨r, hr⟩ := hgoes hs
    cases hr
  | ok r => exact hok r rfl

/-! ### Windows that hinge on one row -/

/-- Some cached window has a room, bookable in `s`, that `Takes` takes away. -/
def Hinges (s : Store) (c : AvailCache) (Takes : AvailKey → ℤ → Prop) : Prop :=
  ∃ k ids, c k = some ids ∧ ∃ id ∈ availableIds s k, Takes k id

theorem coherent_flip_iff {w : World} (h : w.Coherent) {s s₀ : Store} {c : AvailCache}
    {Takes : AvailKey → ℤ → Prop} (hrooms : s.rooms = w.store.rooms)
    (hrooms₀ : s₀.rooms = w.store.rooms) (hsub : Sub c w.cache)
    (hflip : ∀ k id, (Vacant s k id ↔ Vacant w.store k id) ↔ ¬(Vacant s₀ k id ∧ Takes k id)) :
    (World.mk s c).Coherent ↔ ¬Hinges s₀ c Takes := by
  rw [coherent_write_iff h hrooms hsub]
  unfold Hinges
  constructor
  · intro hsame hhinge
    obtain ⟨k, ids, hk, id, hid, htakes⟩ := hhinge
    obtain ⟨r, hr, rfl, hactive, hhotel, hvacant⟩ := mem_availableIds.mp hid
    rw [hrooms₀] at hr
    exact (hflip k r.id).mp (hsame k ids hk r hr hactive hhotel) ⟨hvacant, htakes⟩
  · intro hnone k ids hk r hr hactive hhotel
    rw [hflip]
    intro htaken
    rw [← hrooms₀] at hr
    exact hnone ⟨k, ids, hk, r.id, mem_availableIds.mpr ⟨r, hr, rfl, hactive, hhotel, htaken.1⟩,
      htaken.2⟩

def Store.withoutBlackout (s : Store) (blackoutId : ℤ) : Store :=
  { s with blackoutDates := s.blackoutDates.delete blackoutId }

def Booking.Takes (b : Booking) (k : AvailKey) (roomId : ℤ) : Prop :=
  b.roomId = roomId ∧ b.hotelId = k.hotelId ∧ k.checkIn < b.checkOut ∧ b.checkIn < k.checkOut

def BlackoutDate.Takes (d : BlackoutDate) (k : AvailKey) (roomId : ℤ) : Prop :=
  d.inWindow k.hotelId k.checkIn k.checkOut = true ∧ (d.roomId = none ∨ d.roomId = some roomId)

theorem Booking.frees_iff {b : Booking} {k : AvailKey} {roomId : ℤ} :
    (b.roomId = roomId → b.overlapping k.hotelId k.checkIn k.checkOut = false) ↔
      ¬(b.Live ∧ b.Takes k roomId) := by
  unfold Booking.Takes
  rw [← Bool.not_eq_true, overlapping_eq_true]
  tauto

theorem vacant_of_booking {s : Store} {b : Booking} (hb : s.bookings.get b.id = some b)
    {k : AvailKey} {roomId : ℤ} :
    Vacant s k roomId ↔ Vacant (s.without b.id) k roomId ∧ ¬(b.Live ∧ b.Takes k roomId) := by
  have hrow := ((Table.get_eq_some _).mp hb).1
  unfold Vacant
  rw [and_assoc, ← Booking.frees_iff]
  refine and_congr_right fun _ => ?_
  constructor
  · intro hall
    refine ⟨fun x hx => hall x ?_, hall b hrow⟩
    exact ((Table.mem_deleteWhere _).mp hx).1
  · intro hrest x hx hroom
    by_cases hid : x.id = b.id
    · rw [s.bookings.eq_of_key hx hrow hid] at hroom ⊢
      exact hrest.2 hroom
    · exact hrest.1 x ((Table.mem_deleteWhere _).mpr ⟨hx, by simpa using hid⟩) hroom

theorem vacant_insertBooking {s : Store} {b : Booking} (hid : b.id = s.bookings.next)
    {k : AvailKey} {roomId : ℤ} :
    Vacant { s with bookings := s.bookings.insert b } k roomId ↔
      Vacant s k roomId ∧ ¬(b.Live ∧ b.Takes k roomId) := by
  unfold Vacant
  rw [and_assoc, ← Booking.frees_iff]
  refine and_congr_right fun _ => ?_
  simp only [Table.mem_insert, stamp_booking, ← hid, or_imp, forall_and, forall_eq]

theorem blackout_blocks_iff {s : Store} {k : AvailKey} {roomId : ℤ} :
    checkBlackoutDates s k.hotelId roomId k.checkIn k.checkOut = false ↔
      ∀ d ∈ s.blackoutDates.rows, ¬d.Takes k roomId := by
  unfold checkBlackoutDates BlackoutDate.Takes
  rw [Table.any_eq_false]
  refine forall₂_congr fun d _ => ?_
  rw [← Bool.not_eq_true]
  simp only [Bool.and_eq_true, Bool.or_eq_true, decide_eq_true_eq]

theorem vacant_of_blackout {s : Store} {d : BlackoutDate}
    (hd : s.blackoutDates.get d.id = some d) {k : AvailKey} {roomId : ℤ} :
    Vacant s k roomId ↔ Vacant (s.withoutBlackout d.id) k roomId ∧ ¬d.Takes k roomId := by
  have hrow := ((Table.get_eq_some _).mp hd).1
  unfold Vacant
  rw [blackout_blocks_iff, blackout_blocks_iff, and_right_comm]
  refine and_congr_left fun _ => ?_
  constructor
  · intro hall
    refine ⟨fun x hx => hall x ?_, hall d hrow⟩
    exact ((Table.mem_deleteWhere _).mp hx).1
  · intro hrest x hx
    by_cases hid : x.id = d.id
    · rw [s.blackoutDates.eq_of_key hx hrow hid]
      exact hrest.2
    · exact hrest.1 x ((Table.mem_deleteWhere _).mpr ⟨hx, by simpa using hid⟩)

theorem vacant_insertBlackout {s : Store} {d : BlackoutDate} (hid : d.id = s.blackoutDates.next)
    {k : AvailKey} {roomId : ℤ} :
    Vacant { s with blackoutDates := s.blackoutDates.insert d } k roomId ↔
      Vacant s k roomId ∧ ¬d.Takes k roomId := by
  unfold Vacant
  rw [blackout_blocks_iff, blackout_blocks_iff, and_right_comm]
  refine and_congr_left fun _ => ?_
  simp only [Table.mem_insert, stamp_blackoutDate, ← hid, or_imp, forall_and, forall_eq]

/-! ### Bookings -/

theorem setStatus_coherent_iff {w : World} (h : w.Coherent) {id : ℤ} {status : BookingStatus}
    {b : Booking} (hb : w.store.bookings.get id = some b) {c : AvailCache} (hsub : Sub c w.cache) :
    (World.mk (setStatus w.store id status) c).Coherent ↔
      ¬((b.Live ↔ status = .cancelled) ∧ Hinges (w.store.without id) c b.Takes) := by
  have hid : b.id = id := ((Table.get_eq_some _).mp hb).2
  subst hid
  have hafter : (setStatus w.store b.id status).bookings.get b.id = some { b with status } := by
    simp only [setStatus, Table.get_update, hb, Option.map_some, if_true, stamp_booking]
  have hrest : (setStatus w.store b.id status).without b.id =
      w.store.without b.id := by
    simp only [setStatus, Store.without, Table.delete_update]
  have hvac : ∀ k id, Vacant (setStatus w.store b.id status) k id ↔
      Vacant (w.store.without b.id) k id ∧ ¬(status ≠ .cancelled ∧ b.Takes k id) := by
    intro k id
    rw [← hrest]
    exact vacant_of_booking (b := { b with status }) hafter
  by_cases hflips : b.Live ↔ status = .cancelled
  · rw [and_iff_right hflips]
    refine coherent_flip_iff h rfl rfl hsub fun k id => ?_
    rw [hvac, vacant_of_booking (s := w.store) hb]
    by_cases hc : status = .cancelled
    · have hl : b.Live := hflips.mpr hc
      simp only [hc, hl]
      tauto
    · have hl : ¬b.Live := fun hl => hc (hflips.mp hl)
      simp only [hl]
      tauto
  · refine iff_of_true ?_ fun hs => hflips hs.1
    refine (coherent_write_iff (s := setStatus w.store b.id status) h rfl hsub).mpr ?_
    intro k _ _ r _ _ _
    rw [hvac, vacant_of_booking (s := w.store) hb]
    have hsame : b.Live ↔ status ≠ .cancelled := by tauto
    rw [hsame]

/-- The override brings a booking to life, or ends it, on which a window hinges. -/
def UpdateBookingStales (w : World) (token : Bearer) (bookingId : ℤ) (newStatus : String) :
    Prop :=
  ∃ user status b, getCurrentUser w.store token = .ok user ∧ requireStaffOrAdmin user = .ok () ∧
    BookingStatus.ofString? newStatus = some status ∧
    w.store.bookings.get bookingId = some b ∧ (b.Live ↔ status = .cancelled) ∧
    Hinges (w.store.without bookingId) w.cache b.Takes

theorem updateBooking_coherent_iff {w : World} (h : w.Coherent) (token : Bearer) (bookingId : ℤ)
    (newStatus : String) :
    (World.mk (committed w.store (updateBooking w.store token bookingId newStatus))
        w.cache).Coherent ↔
      ¬UpdateBookingStales w token bookingId newStatus := by
  refine committed_coherent_iff h (fun hs => ?_) fun r hr => ?_
  · obtain ⟨user, status, b, hu, hrole, hlabel, hb, _⟩ := hs
    exact ⟨_, updateBooking_eq_ok.mpr ⟨user, status, b, hu, hrole, hlabel, hb, rfl⟩⟩
  · obtain ⟨user, status, b, hu, hrole, hlabel, hb, rfl⟩ := updateBooking_eq_ok.mp hr
    rw [setStatus_coherent_iff h hb (Sub.refl _), not_iff_not]
    constructor
    · intro hs
      exact ⟨user, status, b, hu, hrole, hlabel, hb, hs.1, hs.2⟩
    · intro hs
      obtain ⟨_, status', b', _, _, hlabel', hb', hs⟩ := hs
      obtain rfl := Option.some.inj (hlabel.symm.trans hlabel')
      obtain rfl := Option.some.inj (hb.symm.trans hb')
      exact hs

/-- A window hinges on the new booking that its invalidation leaves in the cache. -/
def CreateBookingStales (w : World) (env : Env) (token : Bearer) (data : BookingCreate) : Prop :=
  ∃ b, bookingChange w.store (.call ⟨env, token, .guest (.createBooking data)⟩) = some b ∧
    Hinges w.store (invalidateAvailability w.cache b.hotelId b.checkIn b.checkOut) b.Takes

theorem createBooking_coherent_iff {w : World} (h : w.Coherent) (ext : Ext) (env : Env)
    (token : Bearer) (data : BookingCreate) :
    (w.act ext (.call ⟨env, token, .guest (.createBooking data)⟩)).Coherent ↔
      ¬CreateBookingStales w env token data := by
  unfold CreateBookingStales
  cases hr : createBookingEndpoint env w.store token data with
  | error e =>
    simp only [World.act, act, handle, serve, serveGuest, bookingChange, hr, committed,
      Except.toOption, Option.map_none]
    refine iff_of_true h ?_
    intro hs
    obtain ⟨b, hb, _⟩ := hs
    cases hb
  | ok r =>
    obtain ⟨user, room, price, d, _, _, _, _, _, _, rfl⟩ := createBookingEndpoint_eq_ok.mp hr
    simp only [World.act, act, handle, serve, serveGuest, bookingChange, hr, committed,
      Except.toOption, Option.map_some, Option.some.injEq, exists_eq_left']
    refine coherent_flip_iff h rfl rfl (invalidateAvailability_sub _ _ _ _) fun k id => ?_
    rw [vacant_insertBooking rfl]
    have hlive := d.row_live env.now price w.store.bookings.next
    tauto

def CancelBookingStales (w : World) (env : Env) (token : Bearer) (bookingId : ℤ) : Prop :=
  ∃ b, bookingChange w.store (.call ⟨env, token, .guest (.cancelBooking bookingId)⟩) = some b ∧
    (∃ x ∈ w.store.bookings.get bookingId, x.Live) ∧
    Hinges (w.store.without bookingId)
      (invalidateAvailability w.cache b.hotelId b.checkIn b.checkOut) b.Takes

theorem cancelBooking_coherent_iff {w : World} (h : w.Coherent) (ext : Ext) (env : Env)
    (token : Bearer) (bookingId : ℤ) :
    (w.act ext (.call ⟨env, token, .guest (.cancelBooking bookingId)⟩)).Coherent ↔
      ¬CancelBookingStales w env token bookingId := by
  unfold CancelBookingStales
  cases hr : cancelBookingEndpoint w.store token bookingId with
  | error e =>
    simp only [World.act, act, handle, serve, serveGuest, bookingChange, hr, committed,
      Except.toOption, Option.map_none]
    refine iff_of_true h ?_
    intro hs
    obtain ⟨b, hb, _⟩ := hs
    cases hb
  | ok r =>
    obtain ⟨user, b, hu, hb, hown, rfl⟩ := cancelBookingEndpoint_eq_ok.mp hr
    simp only [World.act, act, handle, serve, serveGuest, bookingChange, hr, committed,
      Except.toOption, Option.map_some, Option.some.injEq, exists_eq_left', hb, Option.mem_def]
    rw [setStatus_coherent_iff h hb (invalidateAvailability_sub _ _ _ _)]
    simp only [iff_true]
    exact Iff.rfl

/-! ### Blackout dates -/

def CreateBlackoutStales (w : World) (token : Bearer) (data : BlackoutCreate) : Prop :=
  ∃ hotelId, hotelAdmin w.store token = .ok hotelId ∧
    ((w.store.hotels.get hotelId).isSome = true ∧
      ∀ r ∈ data.roomId, (w.store.rooms.get r).isSome = true) ∧
    Hinges w.store w.cache (BlackoutDate.Takes
      ⟨w.store.blackoutDates.next, hotelId, data.roomId, data.date, data.reason⟩)

theorem createBlackout_coherent_iff {w : World} (h : w.Coherent) (token : Bearer)
    (data : BlackoutCreate) :
    (World.mk (committed w.store (createBlackout w.store token data)) w.cache).Coherent ↔
      ¬CreateBlackoutStales w token data := by
  refine committed_coherent_iff h (fun hs => ?_) fun r hr => ?_
  · obtain ⟨hotelId, ha, hfk, _⟩ := hs
    exact ⟨_, createBlackout_eq_ok.mpr ⟨hotelId, _, ha, hfk, rfl, rfl⟩⟩
  · obtain ⟨hotelId, d, ha, hfk, hrow, rfl⟩ := createBlackout_eq_ok.mp hr
    have hid : d.id = w.store.blackoutDates.next := by rw [hrow]
    have hflip : (World.mk { w.store with
        blackoutDates := w.store.blackoutDates.insert d } w.cache).Coherent ↔
        ¬Hinges w.store w.cache d.Takes := by
      refine coherent_flip_iff h rfl rfl (Sub.refl _) fun k id => ?_
      rw [vacant_insertBlackout hid]
      tauto
    refine hflip.trans (not_congr ?_)
    constructor
    · intro hs
      rw [hrow] at hs
      exact ⟨hotelId, ha, hfk, hs⟩
    · intro hs
      obtain ⟨hotelId', ha', _, hs⟩ := hs
      obtain rfl : hotelId = hotelId' := Except.ok.inj (ha.symm.trans ha')
      rw [hrow]
      exact hs

def DeleteBlackoutStales (w : World) (token : Bearer) (blackoutId : ℤ) : Prop :=
  ∃ hotelId d, hotelAdmin w.store token = .ok hotelId ∧
    w.store.blackoutDates.get blackoutId = some d ∧ d.hotelId = hotelId ∧
    Hinges (w.store.withoutBlackout blackoutId) w.cache d.Takes

theorem deleteBlackout_coherent_iff {w : World} (h : w.Coherent) (token : Bearer)
    (blackoutId : ℤ) :
    (World.mk (committed w.store (deleteBlackout w.store token blackoutId)) w.cache).Coherent ↔
      ¬DeleteBlackoutStales w token blackoutId := by
  refine committed_coherent_iff h (fun hs => ?_) fun r hr => ?_
  · obtain ⟨hotelId, d, ha, hd, hhotel, _⟩ := hs
    exact ⟨_, deleteBlackout_eq_ok.mpr ⟨hotelId, d, ha, hd, hhotel, rfl⟩⟩
  · obtain ⟨hotelId, d, ha, hd, hhotel, rfl⟩ := deleteBlackout_eq_ok.mp hr
    have hid : d.id = blackoutId := ((Table.get_eq_some _).mp hd).2
    subst hid
    have hflip : (World.mk (w.store.withoutBlackout d.id) w.cache).Coherent ↔
        ¬Hinges (w.store.withoutBlackout d.id) w.cache d.Takes := by
      refine coherent_flip_iff h rfl rfl (Sub.refl _) fun k id => ?_
      rw [vacant_of_blackout hd]
      tauto
    refine hflip.trans (not_congr ?_)
    constructor
    · exact fun hs => ⟨hotelId, d, ha, hd, hhotel, hs⟩
    · intro hs
      obtain ⟨_, d', _, hd', _, hs⟩ := hs
      obtain rfl := Option.some.inj (hd.symm.trans hd')
      exact hs

/-! ### Rooms -/

/-- Some cached window lists the room though it is not to be booked there, or
leaves it out though it is. -/
def Misjudged (w : World) (roomId hotelId : ℤ) : Prop :=
  ∃ k ids, w.cache k = some ids ∧
    ¬(roomId ∈ ids ↔ hotelId = k.hotelId ∧ Vacant w.store k roomId)

theorem coherent_rooms_iff {w : World} (h : w.Coherent) {rooms : Table Room} {row : Room}
    (hmem : ∀ r, r ∈ rooms.rows ↔ r = row ∨ (r ∈ w.store.rooms.rows ∧ r.id ≠ row.id)) :
    (World.mk { w.store with rooms := rooms } w.cache).Coherent ↔
      ¬(row.isActive = true ∧ Misjudged w row.id row.hotelId) := by
  have hfit : ∀ k ids, w.cache k = some ids →
      (Fits { w.store with rooms := rooms } k ids ↔
        (row.isActive = true → (row.id ∈ ids ↔ row.hotelId = k.hotelId ∧
          Vacant w.store k row.id))) := by
    intro k ids hk
    have hbefore := fits_iff.mp (h k ids hk)
    rw [fits_iff]
    constructor
    · exact fun hall => hall row ((hmem row).mpr (Or.inl rfl))
    · intro hrow r hr hactive
      rcases (hmem r).mp hr with rfl | ⟨hr', _⟩
      · exact hrow hactive
      · exact hbefore r hr' hactive
  constructor
  · intro hafter hs
    obtain ⟨hactive, k, ids, hk, hwrong⟩ := hs
    exact hwrong ((hfit k ids hk).mp (hafter k ids hk) hactive)
  · intro hs k ids hk
    refine (hfit k ids hk).mpr fun hactive => ?_
    by_contra hwrong
    exact hs ⟨hactive, k, ids, hk, hwrong⟩

def CreateRoomStales (w : World) (token : Bearer) (data : RoomCreate) : Prop :=
  ∃ hotelId basePrice, callerHotel w.store token = .ok hotelId ∧
    numeric? 10 2 data.basePrice = .ok basePrice ∧
    ((w.store.hotels.get hotelId).isSome ∧ (w.store.roomTypes.get data.roomTypeId).isSome) ∧
    data.isActive = true ∧ Misjudged w w.store.rooms.next hotelId

theorem createRoom_coherent_iff {w : World} (h : w.Coherent) (token : Bearer)
    (data : RoomCreate) :
    (World.mk (committed w.store (createRoom w.store token data)) w.cache).Coherent ↔
      ¬CreateRoomStales w token data := by
  refine committed_coherent_iff h (fun hs => ?_) fun r hr => ?_
  · obtain ⟨hotelId, basePrice, hc, hp, hfk, _⟩ := hs
    exact ⟨_, createRoom_eq_ok.mpr ⟨hotelId, basePrice, _, hc, hp, hfk, rfl, rfl⟩⟩
  · obtain ⟨hotelId, basePrice, row, hc, hp, hfk, hrow, rfl⟩ := createRoom_eq_ok.mp hr
    have hid : row.id = w.store.rooms.next := by rw [hrow]
    have hwrite : (World.mk { w.store with rooms := w.store.rooms.insert row } w.cache).Coherent ↔
        ¬(row.isActive = true ∧ Misjudged w row.id row.hotelId) := by
      refine coherent_rooms_iff h fun r => ?_
      rw [Table.mem_insert, stamp_room, ← hid]
      constructor
      · rintro (hr | hr)
        · exact Or.inr ⟨hr, hid ▸ Table.key_ne_next _ hr⟩
        · exact Or.inl hr
      · rintro (hr | hr)
        · exact Or.inr hr
        · exact Or.inl hr.1
    refine hwrite.trans (not_congr ?_)
    rw [hrow]
    constructor
    · exact fun hs => ⟨hotelId, basePrice, hc, hp, hfk, hs⟩
    · intro hs
      obtain ⟨hotelId', _, hc', _, _, hs⟩ := hs
      obtain rfl : hotelId = hotelId' := Except.ok.inj (hc.symm.trans hc')
      exact hs

/-- An active room is judged rightly already, so only a room that becomes active
can be misjudged. -/
theorem writeRoom_coherent_iff {w : World} (h : w.Coherent) {roomId hotelId : ℤ}
    {room changed : Room} {data : RoomUpdate} (hroom : w.store.rooms.get roomId = some room)
    (hhotel : room.hotelId = hotelId) (happly : data.apply hotelId room = .ok changed) :
    (World.mk { w.store with rooms := w.store.rooms.update roomId fun _ => changed }
        w.cache).Coherent ↔
      ¬(room.isActive = false ∧ changed.isActive = true ∧ Misjudged w roomId hotelId) := by
  obtain ⟨hid, hsame⟩ := roomUpdate_apply happly
  obtain ⟨hrow, hkey⟩ := (Table.get_eq_some _).mp hroom
  have hkey : room.id = roomId := hkey
  have hwrite : (World.mk { w.store with
      rooms := w.store.rooms.update roomId fun _ => changed } w.cache).Coherent ↔
      ¬(changed.isActive = true ∧ Misjudged w changed.id changed.hotelId) := by
    refine coherent_rooms_iff h fun r => ?_
    rw [Table.mem_update_of_get _ hroom, Tables.stamp_eq_self (by simp [hid]), hid, hkey]
    exact Iff.rfl
  rw [hid, hkey, hsame] at hwrite
  refine hwrite.trans (not_congr ?_)
  constructor
  · intro hs
    refine ⟨?_, hs⟩
    by_contra hactive
    rw [Bool.not_eq_false] at hactive
    obtain ⟨_, k, ids, hk, hwrong⟩ := hs
    have hfits := fits_iff.mp (h k ids hk) room hrow hactive
    rw [hkey, hhotel] at hfits
    exact hwrong hfits
  · exact fun hs => hs.2

def UpdateRoomStales (w : World) (token : Bearer) (roomId : ℤ) (data : RoomUpdate) : Prop :=
  ∃ hotelId room changed, callerHotel w.store token = .ok hotelId ∧
    w.store.rooms.get roomId = some room ∧ room.hotelId = hotelId ∧
    data.apply hotelId room = .ok changed ∧
    (w.store.roomTypes.get changed.roomTypeId).isSome = true ∧
    room.isActive = false ∧ changed.isActive = true ∧ Misjudged w roomId hotelId

theorem updateRoom_coherent_iff {w : World} (h : w.Coherent) (token : Bearer) (roomId : ℤ)
    (data : RoomUpdate) :
    (World.mk (committed w.store (updateRoom w.store token roomId data)) w.cache).Coherent ↔
      ¬UpdateRoomStales w token roomId data := by
  refine committed_coherent_iff h (fun hs => ?_) fun r hr => ?_
  · obtain ⟨hotelId, room, changed, hc, hg, hhotel, happly, hfk, _⟩ := hs
    exact ⟨_, updateRoom_eq_ok.mpr ⟨hotelId, room, changed, hc, hg, hhotel, happly, hfk, rfl⟩⟩
  · obtain ⟨hotelId, room, changed, hc, hg, hhotel, happly, hfk, rfl⟩ := updateRoom_eq_ok.mp hr
    refine (writeRoom_coherent_iff h hg hhotel happly).trans (not_congr ?_)
    constructor
    · exact fun hs => ⟨hotelId, room, changed, hc, hg, hhotel, happly, hfk, hs⟩
    · intro hs
      obtain ⟨hotelId', room', changed', hc', hg', _, happly', _, hs⟩ := hs
      obtain rfl : hotelId = hotelId' := Except.ok.inj (hc.symm.trans hc')
      obtain rfl := Option.some.inj (hg.symm.trans hg')
      obtain rfl : changed = changed' := Except.ok.inj (happly.symm.trans happly')
      exact hs

theorem deleteRoom_coherent {w : World} (h : w.Coherent) (token : Bearer) (roomId : ℤ) :
    (World.mk (committed w.store (deleteRoom w.store token roomId)) w.cache).Coherent := by
  rw [deleteRoom_eq]
  refine (updateRoom_coherent_iff h token roomId deactivation).mpr fun hs => ?_
  obtain ⟨_, _, changed, _, _, _, happly, _, _, hactive, _⟩ := hs
  rw [deactivation_isActive happly] at hactive
  cases hactive

/-! ### Payments, check-in and all the rest -/

theorem coherent_of_live {w : World} (h : w.Coherent) {s : Store} {id : ℤ}
    (status : BookingStatus) {b : Booking} (hb : w.store.bookings.get id = some b) (hl : b.Live)
    (hs : status ≠ .cancelled) (hrooms : s.rooms = w.store.rooms)
    (hbookings : s.bookings = (setStatus w.store id status).bookings)
    (hblackouts : s.blackoutDates = w.store.blackoutDates) : (World.mk s w.cache).Coherent := by
  have hset : (World.mk (setStatus w.store id status) w.cache).Coherent :=
    (setStatus_coherent_iff h hb (Sub.refl _)).mpr fun hx => hs (hx.1.mp hl)
  exact coherent_of_agree hset hrooms hbookings hblackouts (Sub.refl _)

theorem processPayment_coherent {w : World} (h : w.Coherent) (env : Env) (c : PaymentCall) :
    (World.mk (processPayment env w.store c).2 w.cache).Coherent := by
  have ho := processPayment_outcome env w.store c
  generalize (processPayment env w.store c).2 = s' at ho ⊢
  cases ho with
  | refused hr => exact h
  | unpaid hr hs hg => exact coherent_of_agree h rfl rfl rfl (Sub.refl _)
  | paid hr hg hf =>
    obtain ⟨b, hb⟩ := hr.check
    obtain ⟨_, hget, hc, _⟩ := paymentCheck_eq_ok.mp hb
    exact coherent_of_live h .confirmed hget hc nofun rfl rfl rfl

theorem makePayment_coherent {w : World} (h : w.Coherent) (env : Env) (token : Bearer)
    (data : PaymentRequest) :
    (World.mk (makePayment env w.store token data).2 w.cache).Coherent := by
  rcases makePayment_cases env w.store token data with hs | ⟨user, _, hs⟩
  · rw [hs]
    exact h
  · rw [hs]
    exact processPayment_coherent h env _

theorem checkInBooking_coherent {w : World} (h : w.Coherent) (env : Env) (token : Bearer)
    (bookingId : ℤ) :
    (World.mk (checkInBooking env w.store token bookingId).2 w.cache).Coherent := by
  have hagree : Agree [.bookings, .notifications] w.store
      (checkInBooking env w.store token bookingId).2 := checkInBooking_agree
  have hrooms := hagree .rooms (by decide)
  have hblackouts := hagree .blackoutDates (by decide)
  rcases checkInBooking_bookings env w.store token bookingId with hb | hb
  · exact coherent_of_agree h hrooms hb hblackouts (Sub.refl _)
  · obtain ⟨b, hget, hconfirmed, hb⟩ := hb
    refine coherent_of_live h .completed hget ?_ nofun hrooms hb hblackouts
    unfold Booking.Live
    rw [hconfirmed]
    exact nofun

theorem serve_coherent {w : World} (h : w.Coherent) (ext : Ext) (env : Env) (token : Bearer)
    {r : Request} (hw : ∀ n ∈ [TableName.rooms, .bookings, .blackoutDates], n ∉ r.writes) :
    (World.mk (serve ext env w.store token r) w.cache).Coherent := by
  have hagree := serve_agree ext env w.store token r
  have hrooms := hagree .rooms (hw _ (by decide))
  have hbookings := hagree .bookings (hw _ (by decide))
  have hblackouts := hagree .blackoutDates (hw _ (by decide))
  exact coherent_of_agree h hrooms hbookings hblackouts (Sub.refl _)

/-! ### Searches, the warm-up, expiry -/

theorem availableIds_fits (s : Store) (k : AvailKey) : Fits s k (availableIds s k) := by
  rw [fits_iff]
  intro r hr hactive
  rw [mem_availableIds]
  constructor
  · intro h
    obtain ⟨r', hr', hid, _, hfree⟩ := h
    rwa [s.rooms.eq_of_key hr' hr hid] at hfree
  · intro hfree
    exact ⟨r, hr, rfl, hactive, hfree⟩

theorem search_coherent {w : World} (h : w.Coherent) (k : AvailKey) :
    (World.mk w.store (searchAvailableRooms w.store w.cache k).2).Coherent := by
  unfold searchAvailableRooms
  simp only
  split
  · exact h
  · exact h.put (availableIds_fits w.store k)

theorem warmupLoop_coherent {s : Store} (today : ℤ) (rounds : List (ℤ × ℤ)) {c : AvailCache}
    (h : (World.mk s c).Coherent) : (World.mk s (warmupLoop s today rounds c)).Coherent := by
  induction rounds generalizing c with
  | nil => exact h
  | cons round rounds ih =>
    unfold warmupLoop
    simp only
    split
    · exact h
    · split
      · exact h
      · exact ih (h.put (availableIds_fits s _))

/-! ### Runs -/

/-- The step changes what a search of some cached window should return. -/
def Stales (w : World) : CacheEvent → Prop
  | .act (.call ⟨env, token, .guest (.createBooking data)⟩) => CreateBookingStales w env token data
  | .act (.call ⟨env, token, .guest (.cancelBooking bookingId)⟩) =>
    CancelBookingStales w env token bookingId
  | .act (.call ⟨_, token, .desk (.update bookingId newStatus)⟩) =>
    UpdateBookingStales w token bookingId newStatus
  | .act (.call ⟨_, token, .blackout (.create data)⟩) => CreateBlackoutStales w token data
  | .act (.call ⟨_, token, .blackout (.delete blackoutId)⟩) =>
    DeleteBlackoutStales w token blackoutId
  | .act (.call ⟨_, token, .room (.create data)⟩) => CreateRoomStales w token data
  | .act (.call ⟨_, token, .room (.update roomId data)⟩) => UpdateRoomStales w token roomId data
  | _ => False

theorem call_coherent_iff {w : World} (h : w.Coherent) (ext : Ext) (env : Env) (token : Bearer)
    (r : Request) :
    (w.act ext (.call ⟨env, token, r⟩)).Coherent ↔ ¬Stales w (.act (.call ⟨env, token, r⟩)) := by
  cases r with
  | guest r =>
    cases r with
    | createBooking data => exact createBooking_coherent_iff h ext env token data
    | cancelBooking bookingId => exact cancelBooking_coherent_iff h ext env token bookingId
    | makePayment data => exact iff_of_true (makePayment_coherent h env token data) not_false
    | _ =>
      refine iff_of_true (serve_coherent h ext env token ?_) not_false
      simp [Request.writes, GuestRequest.writes]
  | desk r =>
    cases r with
    | checkIn bookingId =>
      exact iff_of_true (checkInBooking_coherent h env token bookingId) not_false
    | checkOut bookingId =>
      refine iff_of_true (serve_coherent h ext env token ?_) not_false
      simp [Request.writes, DeskRequest.writes]
    | update bookingId newStatus => exact updateBooking_coherent_iff h token bookingId newStatus
  | room r =>
    cases r with
    | create data => exact createRoom_coherent_iff h token data
    | update roomId data => exact updateRoom_coherent_iff h token roomId data
    | delete roomId => exact iff_of_true (deleteRoom_coherent h token roomId) not_false
  | blackout r =>
    cases r with
    | create data => exact createBlackout_coherent_iff h token data
    | delete blackoutId => exact deleteBlackout_coherent_iff h token blackoutId
  | auth r =>
    refine iff_of_true (serve_coherent h ext env token ?_) not_false
    cases r <;> simp [Request.writes, PublicRequest.writes]
  | hotel r =>
    refine iff_of_true (serve_coherent h ext env token ?_) not_false
    cases r <;> simp [Request.writes, HotelRequest.writes]
  | user r =>
    refine iff_of_true (serve_coherent h ext env token ?_) not_false
    cases r <;> simp [Request.writes, UserRequest.writes]
  | _ =>
    refine iff_of_true (serve_coherent h ext env token ?_) not_false
    simp [Request.writes]

theorem step_coherent_iff (ext : Ext) (w : World) (e : CacheEvent) (h : w.Coherent) :
    (w.step ext e).Coherent ↔ ¬Stales w e := by
  cases e with
  | act a =>
    cases a with
    | call c => exact call_coherent_iff h ext c.env c.token c.request
    | payment env c => exact iff_of_true (processPayment_coherent h env c) not_false
  | search k => exact iff_of_true (search_coherent h k) not_false
  | warmup today => exact iff_of_true (warmupLoop_coherent today _ h) not_false
  | expire k => exact iff_of_true (h.of_sub (drop_sub _ _)) not_false

/-- Every search that hits returns the ids of the rooms available right now. -/
def World.HitsAgree (w : World) : Prop :=
  ∀ k, w.cache k ≠ none → ∀ id,
    id ∈ (searchAvailableRooms w.store w.cache k).1.map (fun r => r.room.id) ↔
      id ∈ availableIds w.store k

theorem hitsAgree_iff {w : World} : w.HitsAgree ↔ w.Coherent := by
  have hhit : ∀ k ids, w.cache k = some ids →
      (searchAvailableRooms w.store w.cache k).1.map (fun r => r.room.id) =
        (cachedRooms w.store ids).map Room.id := by
    intro k ids hk
    simp only [searchAvailableRooms, searchedRooms, hk, List.map_map]
    rfl
  constructor
  · intro h k ids hk id
    have hid := h k (by simp [hk]) id
    rwa [hhit k ids hk] at hid
  · intro h k hk id
    obtain ⟨ids, hids⟩ := Option.ne_none_iff_exists'.mp hk
    rw [hhit k ids hids]
    exact h k ids hids id

/-- From a coherent cache, hits stay right over a run exactly when no step of it
changes a window that is cached at that moment. -/
theorem hits_agree_iff_along (ext : Ext) (w : World) (h : w.HitsAgree) (es : List CacheEvent) :
    Always (World.step ext) World.HitsAgree w es ↔
      Along (World.step ext) (fun w e => ¬Stales w e) w es := by
  refine always_iff_along (J := fun _ => True) (Q := fun _ _ => True) (fun _ _ _ => trivial) ?_
    (along_of_forall fun _ _ _ => trivial) trivial h
  intro w e _ _ hw
  rw [hitsAgree_iff] at hw ⊢
  exact step_coherent_iff ext w e hw

def withdraws : CacheEvent := .act (asks 3 (.desk (.update 1 "cancelled")))

theorem searchedWorld_hitsAgree (s : Store) (k : AvailKey) : (searchedWorld s k).HitsAgree := by
  rw [hitsAgree_iff]
  have hcold : (coldWorld s).Coherent := fun _ _ => nofun
  exact search_coherent hcold k

theorem hits_agree_iff_along_later : Always (World.step sampleExt) World.HitsAgree
    (searchedWorld bookedStore ⟨1, 20, 22⟩) [withdraws] := by
  refine (hits_agree_iff_along sampleExt _ (searchedWorld_hitsAgree _ _) [withdraws]).mpr
    ⟨?_, trivial⟩
  intro hs
  obtain ⟨_, _, b, _, _, _, hb, _, k, ids, hk, id, _, htakes⟩ := hs
  have hkey : k = ⟨1, 20, 22⟩ := searchedWorld_cache (by rw [hk]; exact nofun)
  have hget : bookedStore.bookings.get 1 = some sampleBooking := by decide +kernel
  obtain rfl := Option.some.inj (hget.symm.trans hb)
  have hlt := htakes.2.2.1
  rw [hkey] at hlt
  exact absurd hlt (by decide)

theorem withdrawal_stays_hidden :
    (searchedWorld bookedStore ⟨1, 10, 12⟩).HitsAgree ∧
    ¬((searchedWorld bookedStore ⟨1, 10, 12⟩).step sampleExt withdraws).HitsAgree := by
  refine ⟨searchedWorld_hitsAgree _ _, fun h => ?_⟩
  have hid := h ⟨1, 10, 12⟩ (by decide +kernel) 1
  revert hid
  decide +kernel

end HotelMs
