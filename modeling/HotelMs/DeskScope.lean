import HotelMs.HotelScope
import HotelMs.Occupancy

/-!
# Whose bookings the front desk reaches

The four endpoints of `api/v1/admin/bookings.py` all depend on
`get_optional_hotel`. Three filter by it unless it is `None`, the status
override never reads it.
-/

namespace HotelMs

open Tables

inductive DeskCall
  | list (statusFilter : Option String)
  | checkIn (bookingId : ℤ)
  | checkOut (bookingId : ℤ)
  | update (bookingId : ℤ) (newStatus : String)

inductive DeskAnswer
  | listed (bookings : List BookingAdminResponse)
  | checkedIn
  | checkedOut (bookingId : ℤ)
  | updated (newStatus : String)
  deriving DecidableEq

/-- The answer to the caller and the store left behind. -/
def DeskCall.outcome (env : Env) (s : Store) (token : Bearer) : DeskCall → Reply DeskAnswer
  | .list statusFilter => ((listAllBookings s token statusFilter).map .listed, s)
  | .checkIn bookingId =>
    let reply := checkInBooking env s token bookingId
    (reply.1.map fun _ => .checkedIn, reply.2)
  | .checkOut bookingId =>
    let reply := checkOutBooking env s token bookingId
    (reply.map fun _ => .checkedOut bookingId, committed s reply)
  | .update bookingId newStatus =>
    let reply := updateBooking s token bookingId newStatus
    (reply.map fun _ => .updated newStatus, committed s reply)

/-- The call modifies the booking, or answers otherwise than if it did not exist. -/
def DeskCall.Reaches (env : Env) (s : Store) (token : Bearer) (call : DeskCall) (b : Booking) :
    Prop :=
  (call.outcome env s token).1 ≠ (call.outcome env (s.without b.id) token).1 ∨
    b ∉ (call.outcome env s token).2.bookings.rows

instance (env : Env) (s : Store) (token : Bearer) (call : DeskCall) (b : Booking) :
    Decidable (call.Reaches env s token b) :=
  inferInstanceAs (Decidable (_ ∨ _))

/-- The hotel filter of the call admits its bookings, or there are none to admit. -/
def DeskCall.Scoped (s : Store) (user : User) : DeskCall → Prop
  | .list statusFilter => user.hotelId = none →
    ∀ b ∈ s.bookings.rows, b.hasStatus statusFilter = false
  | .checkIn bookingId | .checkOut bookingId =>
    user.hotelId = none → s.bookings.get bookingId = none
  | .update bookingId newStatus => BookingStatus.ofString? newStatus = none ∨
    ∀ b ∈ s.bookings.get bookingId, user.hotelId = some b.hotelId

/-! ### Calls about one booking -/

theorem getBookingById_without {s : Store} {id bookingId : ℤ} {hotelId : Option ℤ} :
    getBookingById (s.without id) bookingId hotelId =
      if bookingId = id then none else getBookingById s bookingId hotelId := by
  unfold getBookingById Store.without
  rw [Table.get_delete]
  split
  · rfl
  · rfl

/-- A call that looks one booking up and answers from what it found reaches
that booking and no other. -/
theorem reaches_lookup_iff (env : Env) {s : Store} {token : Bearer} (call : DeskCall)
    {bookingId : ℤ} {scope : Option ℤ} {F : Option Booking → Except Error DeskAnswer}
    (hsome : ∀ b, F (some b) ≠ F none)
    (hanswer : ∀ id, (call.outcome env (s.without id) token).1 =
      F (getBookingById (s.without id) bookingId scope))
    (hanswer' : (call.outcome env s token).1 = F (getBookingById s bookingId scope))
    {b : Booking} (hb : b ∈ s.bookings.rows)
    (hkeep : b ∉ (call.outcome env s token).2.bookings.rows →
      getBookingById s bookingId scope = some b) :
    call.Reaches env s token b ↔ getBookingById s bookingId scope = some b := by
  have hown : ∀ x, getBookingById s bookingId scope = some x → bookingId = x.id := fun x hx =>
    ((Table.get_eq_some _).mp (getBookingById_eq_some.mp hx).1).2.symm
  constructor
  · intro h
    rcases h with h | h
    · by_contra hne
      refine h ?_
      rw [hanswer, hanswer', getBookingById_without]
      by_cases hid : bookingId = b.id
      · rw [if_pos hid]
        cases hlook : getBookingById s bookingId scope with
        | none => rfl
        | some x =>
          have hx := (Table.get_eq_some _).mp (getBookingById_eq_some.mp hlook).1
          obtain rfl := s.bookings.eq_of_key hx.1 hb (hx.2.trans hid)
          exact absurd hlook hne
      · rw [if_neg hid]
    · exact hkeep h
  · intro h
    refine Or.inl ?_
    rw [hanswer, hanswer', getBookingById_without, if_pos (hown b h), h]
    exact hsome b

/-- What is refused whatever the store holds reaches no booking. -/
theorem not_reaches_of_error {env : Env} {s : Store} {token : Bearer} {user : User}
    (huser : getCurrentUser s token = .ok user) {call : DeskCall} {e : Error}
    (hrefused : ∀ t : Store, getCurrentUser t token = .ok user →
      call.outcome env t token = (.error e, t))
    {b : Booking} (hb : b ∈ s.bookings.rows) : ¬call.Reaches env s token b := by
  intro h
  unfold DeskCall.Reaches at h
  rw [hrefused s huser, hrefused (s.without b.id) huser] at h
  rcases h with h | h
  · exact h rfl
  · exact h hb

/-- The answer once the caller is let through, from the booking found and the
check on its status. -/
def checkedAnswer (users : Table User) (wanted : BookingStatus) (refusal : Booking → Error)
    (answer : DeskAnswer) : Option Booking → Except Error DeskAnswer
  | none => .error (.http 404 "Booking not found")
  | some b =>
    if b.status = wanted then
      if (users.get b.userId).isSome then .ok answer else .error .integrity
    else .error (refusal b)

theorem checkedAnswer_some_ne {users : Table User} {wanted : BookingStatus}
    {refusal : Booking → Error} {answer : DeskAnswer}
    (hrefusal : ∀ b, refusal b ≠ .http 404 "Booking not found") (b : Booking) :
    checkedAnswer users wanted refusal answer (some b) ≠
      checkedAnswer users wanted refusal answer none := by
  unfold checkedAnswer
  simp only
  split
  · split
    · simp
    · simp
  · intro h
    exact hrefusal b (Except.error.inj h)

section

variable {env : Env} {s : Store} {token : Bearer} {user : User}

theorem getOptionalHotel_of_ne (hrole : user.role ≠ .superAdmin) :
    getOptionalHotel user = user.hotelId := if_neg hrole

def checkInRefusal (b : Booking) : Error :=
  .http 400 ("Cannot check-in booking with status '" ++ b.status.toString ++ "'")

def checkOutRefusal (b : Booking) : Error :=
  .http 400 ("Cannot check-out booking with status '" ++ b.status.toString ++
    "'. Guest must be checked in first.")

theorem checkIn_answer (huser : getCurrentUser s token = .ok user)
    (hstaff : requireStaffOrAdmin user = .ok ()) (bookingId : ℤ) :
    ((DeskCall.checkIn bookingId).outcome env s token).1 =
      checkedAnswer s.users .confirmed checkInRefusal .checkedIn
        (getBookingById s bookingId (getOptionalHotel user)) := by
  show (checkInBooking env s token bookingId).1.map _ = _
  unfold checkInBooking scopedBooking
  simp only [huser, hstaff, bind, Except.bind]
  cases hlook : getBookingById s bookingId (getOptionalHotel user) with
  | none => rfl
  | some b =>
    have hget := (getBookingById_eq_some.mp hlook).1
    by_cases hs : b.status = .confirmed
    · simp only [found, ensure, hs, if_true, pure, Except.pure, updateBookingStatus_of_get hget,
        Option.map_some, Option.getD_some, createNotification, checkedAnswer]
      by_cases hu : (s.users.get b.userId).isSome = true
      · simp [setStatus, hu, bind, Except.bind, Except.map]
      · simp [setStatus, hu, bind, Except.bind, Except.map]
    · simp [found, ensure, hs, checkedAnswer, checkInRefusal, Except.map]

theorem checkOut_answer (huser : getCurrentUser s token = .ok user)
    (hstaff : requireStaffOrAdmin user = .ok ()) (bookingId : ℤ) :
    ((DeskCall.checkOut bookingId).outcome env s token).1 =
      checkedAnswer s.users .completed checkOutRefusal (.checkedOut bookingId)
        (getBookingById s bookingId (getOptionalHotel user)) := by
  show (checkOutBooking env s token bookingId).map _ = _
  unfold checkOutBooking scopedBooking
  simp only [huser, hstaff, bind, Except.bind]
  cases hlook : getBookingById s bookingId (getOptionalHotel user) with
  | none => rfl
  | some b =>
    by_cases hs : b.status = .completed
    · simp only [found, ensure, hs, if_true, createNotification, checkedAnswer]
      by_cases hu : (s.users.get b.userId).isSome = true
      · simp [hu, bind, Except.bind, Except.map, pure, Except.pure]
      · simp [hu, bind, Except.bind, Except.map]
    · simp [found, ensure, hs, checkedAnswer, checkOutRefusal, Except.map]

def updateAnswer (newStatus : String) : Option Booking → Except Error DeskAnswer
  | none => .error (.http 404 "Booking not found")
  | some _ => .ok (.updated newStatus)

theorem update_answer (huser : getCurrentUser s token = .ok user)
    (hstaff : requireStaffOrAdmin user = .ok ()) (bookingId : ℤ) {newStatus : String}
    {status : BookingStatus} (hstatus : BookingStatus.ofString? newStatus = some status) :
    ((DeskCall.update bookingId newStatus).outcome env s token).1 =
      updateAnswer newStatus (getBookingById s bookingId none) := by
  show (updateBooking s token bookingId newStatus).map _ = _
  unfold updateBooking
  simp only [huser, hstaff, hstatus, bind, Except.bind, found]
  rw [getBookingById_none]
  cases hget : s.bookings.get bookingId with
  | none => simp [updateBookingStatus, hget, Except.map, updateAnswer]
  | some b => simp [updateBookingStatus_of_get hget, Except.map, updateAnswer]

theorem checkIn_keeps {bookingId : ℤ} {b : Booking} (huser : getCurrentUser s token = .ok user)
    (hstaff : requireStaffOrAdmin user = .ok ()) (hb : b ∈ s.bookings.rows)
    (hlost : b ∉ (checkInBooking env s token bookingId).2.bookings.rows) :
    getBookingById s bookingId (getOptionalHotel user) = some b := by
  cases hlook : getBookingById s bookingId (getOptionalHotel user) with
  | none =>
    have hstay : (checkInBooking env s token bookingId).2 = s := by
      unfold checkInBooking scopedBooking
      simp only [huser, hstaff, bind, Except.bind, hlook, found]
    rw [hstay] at hlost
    exact absurd hb hlost
  | some x =>
    have hx := (Table.get_eq_some _).mp (getBookingById_eq_some.mp hlook).1
    rcases checkInBooking_bookings env s token bookingId with h | h
    · rw [h] at hlost
      exact absurd hb hlost
    · obtain ⟨y, hy, _, h⟩ := h
      rw [h, mem_setStatus hy] at hlost
      have hid : b.id = bookingId := by
        by_contra hne
        exact hlost (Or.inr ⟨hb, hne⟩)
      rw [s.bookings.eq_of_key hb hx.1 (hid.trans hx.2.symm)]

theorem update_keeps {bookingId : ℤ} {newStatus : String} {b : Booking} (hb : b ∈ s.bookings.rows)
    (hlost : b ∉ (committed s (updateBooking s token bookingId newStatus)).bookings.rows) :
    s.bookings.get bookingId = some b := by
  cases hr : updateBooking s token bookingId newStatus with
  | error e =>
    rw [hr] at hlost
    exact absurd hb hlost
  | ok r =>
    obtain ⟨_, status, y, _, _, _, hy, rfl⟩ := updateBooking_eq_ok.mp hr
    rw [hr] at hlost
    have hid : b.id = bookingId := by
      by_contra hne
      exact hlost ((mem_setStatus hy).mpr (Or.inr ⟨hb, hne⟩))
    exact (Table.get_eq_some _).mpr ⟨hb, hid⟩

theorem reaches_checkIn_iff (huser : getCurrentUser s token = .ok user)
    (hstaff : requireStaffOrAdmin user = .ok ()) (bookingId : ℤ) {b : Booking}
    (hb : b ∈ s.bookings.rows) : (DeskCall.checkIn bookingId).Reaches env s token b ↔
      getBookingById s bookingId (getOptionalHotel user) = some b := by
  refine reaches_lookup_iff env _ (checkedAnswer_some_ne fun b h => ?_)
    (fun id => checkIn_answer (s := s.without id) huser hstaff bookingId)
    (checkIn_answer huser hstaff bookingId) hb (checkIn_keeps huser hstaff hb)
  cases h

theorem reaches_checkOut_iff (huser : getCurrentUser s token = .ok user)
    (hstaff : requireStaffOrAdmin user = .ok ()) (bookingId : ℤ) {b : Booking}
    (hb : b ∈ s.bookings.rows) : (DeskCall.checkOut bookingId).Reaches env s token b ↔
      getBookingById s bookingId (getOptionalHotel user) = some b := by
  refine reaches_lookup_iff env _ (checkedAnswer_some_ne fun b h => ?_)
    (fun id => checkOut_answer (s := s.without id) huser hstaff bookingId)
    (checkOut_answer huser hstaff bookingId) hb fun hlost => absurd hb ?_
  · cases h
  · have hsame : (committed s (checkOutBooking env s token bookingId)).bookings = s.bookings :=
      serveDesk_agree env s token (.checkOut bookingId) .bookings
        (by simp [DeskRequest.writes])
    rw [← hsame]
    exact hlost

theorem reaches_update_iff (huser : getCurrentUser s token = .ok user)
    (hstaff : requireStaffOrAdmin user = .ok ()) (bookingId : ℤ) (newStatus : String) {b : Booking}
    (hb : b ∈ s.bookings.rows) : (DeskCall.update bookingId newStatus).Reaches env s token b ↔
      BookingStatus.ofString? newStatus ≠ none ∧ s.bookings.get bookingId = some b := by
  cases hstatus : BookingStatus.ofString? newStatus with
  | none =>
    have hrefused : ∀ t : Store, getCurrentUser t token = .ok user →
        (DeskCall.update bookingId newStatus).outcome env t token = (.error (.http 400
          "Invalid status. Choose from: \x7b'pending', 'confirmed', 'cancelled', 'completed'\x7d"),
          t) := by
      intro t ht
      simp only [DeskCall.outcome, updateBooking, ht, hstaff, hstatus, bind, Except.bind, found,
        Except.map, committed]
    exact iff_of_false (not_reaches_of_error huser hrefused hb) fun h => h.1 rfl
  | some status =>
    rw [← getBookingById_none]
    have hiff := reaches_lookup_iff env (.update bookingId newStatus)
      (F := updateAnswer newStatus) (fun b h => by cases h)
      (fun id => update_answer (s := s.without id) huser hstaff bookingId hstatus)
      (update_answer huser hstaff bookingId hstatus) hb fun hlost => by
        rw [getBookingById_none]
        exact update_keeps hb hlost
    rw [hiff]
    exact (and_iff_right (Option.some_ne_none status)).symm

/-! ### The list -/

theorem listAllBookings_eq (huser : getCurrentUser s token = .ok user)
    (hstaff : requireStaffOrAdmin user = .ok ()) (statusFilter : Option String) :
    listAllBookings s token statusFilter = .ok (((s.bookings.select fun b =>
      (getOptionalHotel user).all (fun h => b.hotelId = h) &&
        b.hasStatus statusFilter).insertionSort fun a b => b.createdAt ≤ a.createdAt).map
          (Booking.adminResponse s)) := by
  simp only [listAllBookings, huser, hstaff, bind, Except.bind, pure, Except.pure]

theorem reaches_list_iff (huser : getCurrentUser s token = .ok user)
    (hstaff : requireStaffOrAdmin user = .ok ()) (statusFilter : Option String) {b : Booking}
    (hb : b ∈ s.bookings.rows) : (DeskCall.list statusFilter).Reaches env s token b ↔
      (∀ h ∈ getOptionalHotel user, b.hotelId = h) ∧ b.hasStatus statusFilter = true := by
  have hall : ∀ x : Booking, (getOptionalHotel user).all (fun h => x.hotelId = h) = true ↔
      ∀ h ∈ getOptionalHotel user, x.hotelId = h := by
    intro x
    cases getOptionalHotel user with
    | none => simp
    | some h => simp
  have hrows := listAllBookings_eq huser hstaff statusFilter
  have hrows' := listAllBookings_eq (s := s.without b.id) huser hstaff statusFilter
  unfold DeskCall.Reaches
  simp only [DeskCall.outcome, hrows, hrows', Except.map]
  constructor
  · intro h
    by_contra hno
    refine h.elim (fun hne => hne ?_) fun hlost => hlost hb
    -- a booking the filter leaves out can be deleted without changing the list
    have hselect : (s.without b.id).bookings.select (fun x =>
        (getOptionalHotel user).all (fun h => x.hotelId = h) && x.hasStatus statusFilter) =
        s.bookings.select fun x =>
          (getOptionalHotel user).all (fun h => x.hotelId = h) && x.hasStatus statusFilter := by
      refine Table.select_deleteWhere _ fun x hx hid => ?_
      obtain rfl := s.bookings.eq_of_key hx hb (of_decide_eq_true hid)
      rw [← Bool.not_eq_true, Bool.and_eq_true, hall]
      exact hno
    rw [hselect]
    rfl
  · intro h
    refine Or.inl fun heq => ?_
    have hlists := DeskAnswer.listed.inj (Except.ok.inj heq)
    have hin : b.adminResponse s ∈ ((s.bookings.select fun b =>
        (getOptionalHotel user).all (fun h => b.hotelId = h) &&
          b.hasStatus statusFilter).insertionSort fun a b => b.createdAt ≤ a.createdAt).map
            (Booking.adminResponse s) := by
      refine List.mem_map_of_mem ((List.mem_insertionSort _).mpr ?_)
      rw [Table.mem_select, Bool.and_eq_true, hall]
      exact ⟨hb, h⟩
    rw [hlists] at hin
    obtain ⟨x, hx, hsame⟩ := List.mem_map.mp hin
    have hrow := ((Table.mem_select _).mp ((List.mem_insertionSort _).mp hx)).1
    have hid : x.id = b.id := congrArg BookingAdminResponse.id hsame
    have hkept := (List.mem_filter.mp hrow).2
    simp [hid] at hkept

end

/-! ### Isolation -/

theorem not_reaches_of_refused {env : Env} {s : Store} {token : Bearer} {user : User}
    (huser : getCurrentUser s token = .ok user) {e : Error}
    (hstaff : requireStaffOrAdmin user = .error e) (call : DeskCall) {b : Booking}
    (hb : b ∈ s.bookings.rows) : ¬call.Reaches env s token b := by
  refine not_reaches_of_error huser (e := e) (fun t ht => ?_) hb
  cases call with
  | list statusFilter =>
    simp only [DeskCall.outcome, listAllBookings, ht, hstaff, bind, Except.bind, Except.map]
  | checkIn bookingId =>
    simp only [DeskCall.outcome, checkInBooking, ht, hstaff, bind, Except.bind, Except.map]
  | checkOut bookingId =>
    simp only [DeskCall.outcome, checkOutBooking, ht, hstaff, bind, Except.bind, Except.map,
      committed]
  | update bookingId newStatus =>
    simp only [DeskCall.outcome, updateBooking, ht, hstaff, bind, Except.bind, Except.map,
      committed]

theorem requireStaffOrAdmin_of_role {user : User} (hrole : user.role ≠ .guest) :
    requireStaffOrAdmin user = .ok () := by
  unfold requireStaffOrAdmin requireRoles
  rw [ensure_eq_ok]
  cases h : user.role with
  | guest => exact absurd h hrole
  | staff => decide
  | hotelAdmin => decide
  | superAdmin => decide

theorem requireStaffOrAdmin_of_guest {user : User} (hrole : user.role = .guest) :
    requireStaffOrAdmin user =
      .error (.http 403 "Access denied. Required roles: staff, hotel_admin, super_admin") := by
  unfold requireStaffOrAdmin requireRoles ensure
  rw [hrole]
  rfl

theorem lookup_scoped_iff {s : Store} {bookingId : ℤ} {hotelId : Option ℤ} :
    (∀ b ∈ s.bookings.rows, getBookingById s bookingId hotelId = some b →
      hotelId = some b.hotelId) ↔ (hotelId = none → s.bookings.get bookingId = none) := by
  cases hotelId with
  | none =>
    rw [getBookingById_none]
    cases hget : s.bookings.get bookingId with
    | none => simp
    | some b =>
      refine iff_of_false (fun h => ?_) fun h => nomatch h rfl
      cases h b ((Table.get_eq_some _).mp hget).1 rfl
  | some h =>
    refine iff_of_true (fun b _ hb => ?_) nofun
    rw [(getBookingById_eq_some.mp hb).2 h rfl]

/-- A caller below super admin reaches bookings of the own hotel only, exactly
when the caller is a guest, whom every endpoint refuses, or the call is scoped. -/
theorem desk_isolated_iff (env : Env) (s : Store) (token : Bearer) (user : User)
    (huser : getCurrentUser s token = .ok user) (hrole : user.role ≠ .superAdmin)
    (call : DeskCall) :
    (∀ b ∈ s.bookings.rows, call.Reaches env s token b → user.hotelId = some b.hotelId) ↔
      user.role = .guest ∨ call.Scoped s user := by
  by_cases hguest : user.role = .guest
  · refine iff_of_true (fun b hb hreach => absurd hreach ?_) (Or.inl hguest)
    exact not_reaches_of_refused huser (requireStaffOrAdmin_of_guest hguest) call hb
  have hstaff := requireStaffOrAdmin_of_role hguest
  have hscope := getOptionalHotel_of_ne hrole
  rw [or_iff_right hguest]
  cases call with
  | list statusFilter =>
    have hiff : (∀ b ∈ s.bookings.rows,
        (DeskCall.list statusFilter).Reaches env s token b → user.hotelId = some b.hotelId) ↔
        ∀ b ∈ s.bookings.rows, ((∀ h ∈ user.hotelId, b.hotelId = h) ∧
          b.hasStatus statusFilter = true) → user.hotelId = some b.hotelId := by
      refine forall₂_congr fun b hb => ?_
      rw [reaches_list_iff huser hstaff statusFilter hb, hscope]
    rw [hiff]
    unfold DeskCall.Scoped
    cases user.hotelId with
    | none => simp
    | some h =>
      refine iff_of_true (fun b _ hb => ?_) nofun
      rw [hb.1 h rfl]
  | checkIn bookingId =>
    refine Iff.trans (forall₂_congr fun b hb => ?_) lookup_scoped_iff
    rw [reaches_checkIn_iff huser hstaff bookingId hb, hscope]
  | checkOut bookingId =>
    refine Iff.trans (forall₂_congr fun b hb => ?_) lookup_scoped_iff
    rw [reaches_checkOut_iff huser hstaff bookingId hb, hscope]
  | update bookingId newStatus =>
    constructor
    · intro h
      refine or_iff_not_imp_left.mpr fun hstatus b hb => ?_
      have hmem := ((Table.get_eq_some _).mp hb).1
      exact h b hmem ((reaches_update_iff huser hstaff bookingId newStatus hmem).mpr ⟨hstatus, hb⟩)
    · intro h b hb hreach
      obtain ⟨hstatus, hget⟩ :=
        (reaches_update_iff huser hstaff bookingId newStatus hb).mp hreach
      exact (h.resolve_left hstatus) b hget

/-- Hotel 2 opens, one of its accounts adds a room and guest 1 books it. Hotel 1
gets a super admin (user 5), who hires a clerk (user 6). -/
def secondHotel : List Action :=
  [.call ⟨sampleEnv "", none, .hotel (.create
      ⟨"Plaza", none, none, none, none, none, none, none, none, none, 0⟩)⟩,
    .call ⟨sampleEnv "", none, .auth (.register (mallory (some 2)))⟩,
    asks 4 (.room (.create ⟨2, 1, none, none, some 80, none, true⟩)),
    asks 1 (.guest (.createBooking { sampleStay with roomId := 2 })),
    asks 3 (.user (.add ⟨"Boss", "d@x.org", "secret", "super_admin", none, none, none⟩)),
    asks 5 (.user (.add ⟨"Clerk", "e@x.org", "secret", "staff", none, none, none⟩))]

def deskStore : Store := secondHotel.foldl (act sampleExt) sampleStore

def deskUser (userId : ℤ) : User :=
  (deskStore.users.get userId).getD (sampleUser .guest "" none)

theorem desk_isolated_iff_sample :
    (∀ b ∈ deskStore.bookings.rows,
        (DeskCall.checkIn 1).Reaches (sampleEnv "") deskStore (some 3) b →
          (deskUser 3).hotelId = some b.hotelId) ↔
      (deskUser 3).role = .guest ∨ (DeskCall.checkIn 1).Scoped deskStore (deskUser 3) :=
  desk_isolated_iff (sampleEnv "") deskStore (some 3) (deskUser 3)
    (getCurrentUser_eq_ok.mpr ⟨3, rfl, by decide +kernel⟩) (by decide +kernel) _

/-- The admin of hotel 1 cancels the booking of hotel 2, and the clerk without a
hotel is shown it. -/
theorem desk_crosses_hotels :
    (∀ b ∈ deskStore.bookings.rows, b.hotelId = 2) ∧ (deskUser 3).role = .hotelAdmin ∧
      (deskUser 3).hotelId = some 1 ∧ (deskUser 6).role = .staff ∧ (deskUser 6).hotelId = none ∧
      (∃ b ∈ deskStore.bookings.rows,
        (DeskCall.update 1 "cancelled").Reaches (sampleEnv "") deskStore (some 3) b) ∧
      ∃ b ∈ deskStore.bookings.rows,
        (DeskCall.list none).Reaches (sampleEnv "") deskStore (some 6) b := by
  decide +kernel

end HotelMs
