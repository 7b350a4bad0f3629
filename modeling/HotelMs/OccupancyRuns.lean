import HotelMs.Occupancy

/-!
# Occupancy over serial runs

Every action but the status override moves the bookings in one of three ways,
and none of them gives a room night away twice. The override can.
-/

namespace HotelMs

open Tables Runs

/-! ### How an action moves the bookings -/

/-- The status changes of cancelling, paying and checking in. -/
inductive Transition : BookingStatus → BookingStatus → Prop
  | cancel (b : BookingStatus) : Transition b .cancelled
  | pay {b : BookingStatus} (hc : b ≠ .cancelled) (hd : b ≠ .completed) : Transition b .confirmed
  | checkIn : Transition .confirmed .completed

theorem Transition.live {a b : BookingStatus} (h : Transition a b) (hb : b ≠ .cancelled) :
    a ≠ .cancelled := by
  cases h with
  | cancel => exact absurd rfl hb
  | pay hc hd => exact hc
  | checkIn => decide

inductive BookingMove (s : Store) : Table Booking → Prop
  | same : BookingMove s s.bookings
  | created {b : Booking} {room : Room} (hroom : s.rooms.get b.roomId = some room)
      (hhotel : b.hotelId = room.hotelId)
      (havail : isAvailable s room.hotelId b.roomId b.checkIn b.checkOut = true)
      (hid : b.id = s.bookings.next) (hpending : b.status = .pending) :
      BookingMove s (s.bookings.insert b)
  | moved {id : ℤ} {status : BookingStatus} {b : Booking} (hb : s.bookings.get id = some b)
      (ht : Transition b.status status) : BookingMove s (setStatus s id status).bookings

theorem createBookingEndpoint_move (env : Env) (s : Store) (token : Bearer) (data : BookingCreate) :
    BookingMove s (committed s (createBookingEndpoint env s token data)).bookings := by
  rcases createBookingEndpoint_bookings env s token data with h | h
  · rw [h]
    exact .same
  · obtain ⟨b, room, hroom, hhotel, havail, hid, hpending, h⟩ := h
    rw [h]
    exact .created hroom hhotel havail hid hpending

theorem cancelBookingEndpoint_move (s : Store) (token : Bearer) (bookingId : ℤ) :
    BookingMove s (committed s (cancelBookingEndpoint s token bookingId)).bookings := by
  rcases cancelBookingEndpoint_bookings s token bookingId with h | h
  · rw [h]
    exact .same
  · obtain ⟨b, hb, h⟩ := h
    rw [h]
    exact .moved hb (.cancel _)

theorem processPayment_move (env : Env) (s : Store) (c : PaymentCall) :
    BookingMove s (processPayment env s c).2.bookings := by
  have ho := processPayment_outcome env s c
  generalize (processPayment env s c).2 = s' at ho ⊢
  cases ho with
  | refused h => exact .same
  | unpaid h hs hg => exact .same
  | paid h hg hf =>
    obtain ⟨b, hb⟩ := h.check
    obtain ⟨_, hget, hc, hd⟩ := paymentCheck_eq_ok.mp hb
    exact .moved hget (.pay hc hd)

theorem makePayment_move (env : Env) (s : Store) (token : Bearer) (data : PaymentRequest) :
    BookingMove s (makePayment env s token data).2.bookings := by
  rcases makePayment_cases env s token data with h | ⟨user, _, h⟩
  · rw [h]
    exact .same
  · rw [h]
    exact processPayment_move env s _

theorem checkInBooking_move (env : Env) (s : Store) (token : Bearer) (bookingId : ℤ) :
    BookingMove s (checkInBooking env s token bookingId).2.bookings := by
  rcases checkInBooking_bookings env s token bookingId with h | h
  · rw [h]
    exact .same
  · obtain ⟨b, hb, hconfirmed, h⟩ := h
    rw [h]
    refine .moved hb ?_
    rw [hconfirmed]
    exact .checkIn

def Action.isOverride : Action → Bool
  | .call ⟨_, _, .desk (.update _ _)⟩ => true
  | _ => false

theorem act_move (ext : Ext) (s : Store) (a : Action) (h : a.isOverride = false) :
    BookingMove s (act ext s a).bookings := by
  cases a with
  | payment env c => exact processPayment_move env s c
  | call c =>
    by_cases hw : TableName.bookings ∈ c.request.writes
    · obtain ⟨env, token, request⟩ := c
      cases Request.books_of_writes hw with
      | create data => exact createBookingEndpoint_move env s token data
      | cancel bookingId => exact cancelBookingEndpoint_move s token bookingId
      | pay data => exact makePayment_move env s token data
      | checkIn bookingId => exact checkInBooking_move env s token bookingId
      | override bookingId newStatus => cases h
    · have hsame : (act ext s (.call c)).bookings = s.bookings :=
        serve_agree ext c.env s c.token c.request .bookings hw
      rw [hsame]
      exact .same

/-! ### Rooms stay, and stay in their hotel -/

def RoomsStay (s s' : Store) : Prop :=
  ∀ r ∈ s.rooms.rows, ∃ r' ∈ s'.rooms.rows, r'.id = r.id ∧ r'.hotelId = r.hotelId

theorem RoomsStay.of_eq {s s' : Store} (h : s'.rooms = s.rooms) : RoomsStay s s' := by
  intro r hr
  rw [h]
  exact ⟨r, hr, rfl, rfl⟩

theorem createRoom_stay (s : Store) (token : Bearer) (data : RoomCreate) :
    RoomsStay s (committed s (createRoom s token data)) := by
  cases h : createRoom s token data with
  | error e => exact .of_eq rfl
  | ok r =>
    simp only [createRoom, bind_eq_ok, pure_eq_ok] at h
    obtain ⟨_, _, _, _, _, _, rfl⟩ := h
    exact fun r hr => ⟨r, (Table.mem_insert _).mpr (Or.inl hr), rfl, rfl⟩

theorem writeRoom_stay {s : Store} {roomId hotelId : ℤ} {data : RoomUpdate} {r : Room × Store}
    (h : writeRoom s roomId hotelId data = .ok r) : RoomsStay s r.2 := by
  obtain ⟨room, changed, hget, rfl, happly, rfl⟩ := writeRoom_eq_ok h
  obtain ⟨_, hhotel⟩ := roomUpdate_apply happly
  intro x hx
  by_cases hid : x.id = roomId
  · obtain rfl := s.rooms.eq_of_key hx ((Table.get_eq_some _).mp hget).1
      (hid.trans ((Table.get_eq_some _).mp hget).2.symm)
    exact ⟨_, (Table.mem_update_of_get _ hget).mpr (Or.inl rfl), rfl, hhotel⟩
  · exact ⟨x, (Table.mem_update_of_get _ hget).mpr (Or.inr ⟨hx, hid⟩), rfl, rfl⟩

theorem updateRoom_stay (s : Store) (token : Bearer) (roomId : ℤ) (data : RoomUpdate) :
    RoomsStay s (committed s (updateRoom s token roomId data)) := by
  cases h : updateRoom s token roomId data with
  | error e => exact .of_eq rfl
  | ok r =>
    obtain ⟨_, _, hw⟩ := bind_eq_ok.mp h
    exact writeRoom_stay hw

theorem deleteRoom_stay (s : Store) (token : Bearer) (roomId : ℤ) :
    RoomsStay s (committed s (deleteRoom s token roomId)) := by
  rw [deleteRoom_eq]
  exact updateRoom_stay s token roomId deactivation

theorem serveRoom_stay (s : Store) (token : Bearer) (r : RoomRequest) :
    RoomsStay s (serveRoom s token r) := by
  cases r with
  | create data => exact createRoom_stay s token data
  | update roomId data => exact updateRoom_stay s token roomId data
  | delete roomId => exact deleteRoom_stay s token roomId

theorem act_roomsStay (ext : Ext) (s : Store) (a : Action) : RoomsStay s (act ext s a) := by
  cases a with
  | payment env c => exact .of_eq (processPayment_agree .rooms (by decide))
  | call c =>
    by_cases hw : TableName.rooms ∈ c.request.writes
    · obtain ⟨env, token, request⟩ := c
      cases request with
      | room r => exact serveRoom_stay s token r
      | guest r => cases r <;> simp [Request.writes, GuestRequest.writes] at hw
      | desk r => cases r <;> simp [Request.writes, DeskRequest.writes] at hw
      | auth r => cases r <;> simp [Request.writes, PublicRequest.writes] at hw
      | hotel r => cases r <;> simp [Request.writes, HotelRequest.writes] at hw
      | user r => cases r <;> simp [Request.writes, UserRequest.writes] at hw
      | _ => simp [Request.writes] at hw
    · exact .of_eq (serve_agree ext c.env s c.token c.request .rooms hw)

/-! ### The invariant -/

def HotelsAgree (s : Store) : Prop :=
  ∀ b ∈ s.bookings.rows, ∃ r ∈ s.rooms.rows, r.id = b.roomId ∧ r.hotelId = b.hotelId

/-- The availability query compares hotels too, so it sees every booking of the
room only while the hotels agree. -/
theorem roomFree_of_isAvailable {s : Store} {room : Room} {roomId checkIn checkOut : ℤ}
    (hagree : HotelsAgree s) (hroom : s.rooms.get roomId = some room)
    (havail : isAvailable s room.hotelId roomId checkIn checkOut = true) :
    RoomFree s.bookings roomId (Set.Ico checkIn checkOut) := by
  intro b hb hbroom hlive
  obtain ⟨r, hr, hid, hhotel⟩ := hagree b hb
  have hmem := (Table.get_eq_some _).mp hroom
  obtain rfl := s.rooms.eq_of_key hr hmem.1 ((hid.trans hbroom).trans hmem.2.symm)
  have hover := not_overlapping_of_isAvailable havail hb hbroom
  rw [Set.disjoint_left]
  intro night hnb hns
  rw [overlapping_of_share hhotel.symm hlive hnb hns] at hover
  cases hover

theorem hotelsAgree_step {s s' : Store} (h : HotelsAgree s) (hmove : BookingMove s s'.bookings)
    (hstay : RoomsStay s s') : HotelsAgree s' := by
  have hold : ∀ b ∈ s.bookings.rows, ∃ r ∈ s'.rooms.rows,
      r.id = b.roomId ∧ r.hotelId = b.hotelId := by
    intro b hb
    obtain ⟨r, hr, hid, hhotel⟩ := h b hb
    obtain ⟨r', hr', hid', hhotel'⟩ := hstay r hr
    exact ⟨r', hr', hid'.trans hid, hhotel'.trans hhotel⟩
  unfold HotelsAgree
  generalize s'.bookings = t at hmove ⊢
  cases hmove with
  | same => exact hold
  | @created b room hroom hhotel havail hid hpending =>
    intro x hx
    rcases (Table.mem_insert _).mp hx with hx | rfl
    · exact hold x hx
    · have hmem := (Table.get_eq_some _).mp hroom
      obtain ⟨r', hr', hid', hhotel'⟩ := hstay room hmem.1
      rw [stamp_eq_self hid]
      exact ⟨r', hr', hid'.trans hmem.2, hhotel'.trans hhotel.symm⟩
  | @moved id status b hb ht =>
    intro x hx
    rcases (mem_setStatus hb).mp hx with rfl | hx
    · exact hold b ((Table.get_eq_some _).mp hb).1
    · exact hold x hx.1

theorem noDoubleBooking_step {s : Store} {t : Table Booking} (h : NoDoubleBooking s.bookings)
    (hagree : HotelsAgree s) (hmove : BookingMove s t) : NoDoubleBooking t := by
  cases hmove with
  | same => exact h
  | @created b room hroom hhotel havail hid hpending =>
    have hlive : b.Live := by
      rw [Booking.Live, hpending]
      decide
    have hfree := roomFree_of_isAvailable hagree hroom havail
    exact (noDoubleBooking_insert_iff hid hlive).mpr ⟨h, hfree⟩
  | @moved id status b hb ht =>
    refine noDoubleBooking_setStatus h fun b' hb' hlive => ?_
    obtain rfl := Option.some.inj (hb.symm.trans hb')
    exact ht.live hlive

structure SoundOccupancy (s : Store) : Prop where
  disjoint : NoDoubleBooking s.bookings
  hotels : HotelsAgree s

theorem soundOccupancy_step (ext : Ext) (s : Store) (a : Action) (h : SoundOccupancy s)
    (ha : a.isOverride = false) : SoundOccupancy (act ext s a) := by
  have hmove := act_move ext s a ha
  exact ⟨noDoubleBooking_step h.disjoint h.hotels hmove,
    hotelsAgree_step h.hotels hmove (act_roomsStay ext s a)⟩

theorem soundOccupancy_empty {s : Store} (h : s.bookings.rows = []) : SoundOccupancy s := by
  refine ⟨?_, ?_⟩
  · intro b hb
    rw [h] at hb
    cases hb
  · intro b hb
    rw [h] at hb
    cases hb

/-- From an empty bookings table, serial runs without the override keep the
live bookings of each room disjoint and in the hotel of the room. -/
theorem serial_occupancy_sound (ext : Ext) (s : Store) (hempty : s.bookings.rows = [])
    (as : List Action) (hserial : ∀ a ∈ as, a.isOverride = false) :
    Always (act ext) SoundOccupancy s as :=
  always_of_along (soundOccupancy_step ext) (soundOccupancy_empty hempty)
    (along_of_forall fun _ => hserial)

theorem serial_occupancy_sound_sample :
    Always (act sampleExt) SoundOccupancy sampleStore
      [books 1 10 12 (by decide), asks 1 (.guest (.cancelBooking 1)), books 2 11 13 (by decide),
        .payment (sampleEnv "txn_2") ⟨2, 2, 200, "card", "USD"⟩, asks 3 (.desk (.checkIn 2))] :=
  serial_occupancy_sound sampleExt sampleStore rfl _ (by decide)

/-! ### The override -/

/-- The override is let through and makes a cancelled booking live, although one
of its nights now belongs to another live booking of the room. -/
def RevivesSold (s : Store) (token : Bearer) (bookingId : ℤ) (newStatus : String) : Prop :=
  ∃ user status b, getCurrentUser s token = .ok user ∧ requireStaffOrAdmin user = .ok () ∧
    BookingStatus.ofString? newStatus = some status ∧ status ≠ .cancelled ∧
    s.bookings.get bookingId = some b ∧ b.status = .cancelled ∧
    ¬RoomFree s.bookings b.roomId b.stay

/-- The override keeps the bookings disjoint unless it revives a sold stay. -/
theorem override_disjoint_iff (s : Store) (token : Bearer) (bookingId : ℤ) (newStatus : String)
    (h : NoDoubleBooking s.bookings) :
    NoDoubleBooking (committed s (updateBooking s token bookingId newStatus)).bookings ↔
      ¬RevivesSold s token bookingId newStatus := by
  cases hr : updateBooking s token bookingId newStatus with
  | error e =>
    have hno : ¬RevivesSold s token bookingId newStatus := by
      intro hrev
      obtain ⟨user, status, b, hu, hrole, hs, _, hb, _⟩ := hrev
      rw [updateBooking_eq_ok.mpr ⟨user, status, b, hu, hrole, hs, hb, rfl⟩] at hr
      cases hr
    exact iff_of_true h hno
  | ok r =>
    obtain ⟨user, status, b, hu, hrole, hs, hb, rfl⟩ := updateBooking_eq_ok.mp hr
    show NoDoubleBooking (setStatus s bookingId status).bookings ↔ _
    by_cases hrevive : ¬b.Live ∧ status ≠ .cancelled
    · rw [noDoubleBooking_revive_iff hb hrevive.1 hrevive.2]
      constructor
      · intro hfree hrev
        obtain ⟨_, _, b', _, _, _, _, hb', _, hsold⟩ := hrev
        obtain rfl := Option.some.inj (hb.symm.trans hb')
        exact hsold hfree.2
      · intro hno
        refine ⟨h, by_contra fun hsold => hno ?_⟩
        exact ⟨user, status, b, hu, hrole, hs, hrevive.2, hb, not_not.mp hrevive.1, hsold⟩
    · refine iff_of_true (noDoubleBooking_setStatus h fun b' hb' hlive => ?_) fun hrev => ?_
      · obtain rfl := Option.some.inj (hb.symm.trans hb')
        exact not_not.mp fun hdead => hrevive ⟨hdead, hlive⟩
      · obtain ⟨_, status', b', _, _, hs', hlive, hb', hdead, _⟩ := hrev
        obtain rfl := Option.some.inj (hb.symm.trans hb')
        obtain rfl := Option.some.inj (hs.symm.trans hs')
        exact hrevive ⟨not_not.mpr hdead, hlive⟩

def soldAgain : Store :=
  run (act sampleExt) bookedStore [asks 1 (.guest (.cancelBooking 1)), books 2 11 13 (by decide)]

theorem override_disjoint_iff_soldAgain : NoDoubleBooking soldAgain.bookings ∧
    (NoDoubleBooking (committed soldAgain
      (updateBooking soldAgain (some 3) 1 "confirmed")).bookings ↔
      ¬RevivesSold soldAgain (some 3) 1 "confirmed") :=
  ⟨by decide +kernel, override_disjoint_iff soldAgain (some 3) 1 "confirmed" (by decide +kernel)⟩

theorem override_sells_twice : NoDoubleBooking soldAgain.bookings ∧
    ¬NoDoubleBooking (committed soldAgain
      (updateBooking soldAgain (some 3) 1 "confirmed")).bookings := by
  decide +kernel

end HotelMs
