import HotelMs.Api

/-!
# Which tables a request can change

Every endpoint has a footprint, the tables it may write. Whatever it does, all
other tables are the same afterwards.
-/

namespace HotelMs

open Tables

inductive TableName
  | hotels
  | hotelImages
  | hotelFacilities
  | roomTypes
  | rooms
  | blackoutDates
  | pricingRules
  | users
  | bookings
  | payments
  | reviews
  | notifications
  | wishlistItems
  | emailVerifications
  | passwordResets
  | guestNotes
  | activityLogs
  deriving DecidableEq

def TableName.Contents : TableName → Type
  | .hotels => Table Hotel
  | .hotelImages => Table HotelImage
  | .hotelFacilities => List (ℤ × ℤ)
  | .roomTypes => Table RoomType
  | .rooms => Table Room
  | .blackoutDates => Table BlackoutDate
  | .pricingRules => Table PricingRule
  | .users => Table User
  | .bookings => Table Booking
  | .payments => Table Payment
  | .reviews => Table Review
  | .notifications => Table Notification
  | .wishlistItems => Table WishlistItem
  | .emailVerifications => Table OneTimeToken
  | .passwordResets => Table OneTimeToken
  | .guestNotes => Table GuestNote
  | .activityLogs => Table ActivityLog

def Store.table (s : Store) : (n : TableName) → n.Contents
  | .hotels => s.hotels
  | .hotelImages => s.hotelImages
  | .hotelFacilities => s.hotelFacilities
  | .roomTypes => s.roomTypes
  | .rooms => s.rooms
  | .blackoutDates => s.blackoutDates
  | .pricingRules => s.pricingRules
  | .users => s.users
  | .bookings => s.bookings
  | .payments => s.payments
  | .reviews => s.reviews
  | .notifications => s.notifications
  | .wishlistItems => s.wishlistItems
  | .emailVerifications => s.emailVerifications
  | .passwordResets => s.passwordResets
  | .guestNotes => s.guestNotes
  | .activityLogs => s.activityLogs

def Store.put (s : Store) : (n : TableName) → n.Contents → Store
  | .hotels, t => { s with hotels := t }
  | .hotelImages, t => { s with hotelImages := t }
  | .hotelFacilities, t => { s with hotelFacilities := t }
  | .roomTypes, t => { s with roomTypes := t }
  | .rooms, t => { s with rooms := t }
  | .blackoutDates, t => { s with blackoutDates := t }
  | .pricingRules, t => { s with pricingRules := t }
  | .users, t => { s with users := t }
  | .bookings, t => { s with bookings := t }
  | .payments, t => { s with payments := t }
  | .reviews, t => { s with reviews := t }
  | .notifications, t => { s with notifications := t }
  | .wishlistItems, t => { s with wishlistItems := t }
  | .emailVerifications, t => { s with emailVerifications := t }
  | .passwordResets, t => { s with passwordResets := t }
  | .guestNotes, t => { s with guestNotes := t }
  | .activityLogs, t => { s with activityLogs := t }

/-- Every table outside `ts` is the same in both stores. -/
def Agree (ts : List TableName) (s s' : Store) : Prop := ∀ n, n ∉ ts → s'.table n = s.table n

theorem Agree.refl (ts : List TableName) (s : Store) : Agree ts s s := fun _ _ => rfl

theorem Agree.trans {ts : List TableName} {s s' s'' : Store} (h : Agree ts s s')
    (h' : Agree ts s' s'') : Agree ts s s'' :=
  fun n hn => (h' n hn).trans (h n hn)

theorem Agree.mono {ts ts' : List TableName} {s s' : Store} (h : Agree ts s s') (hsub : ts ⊆ ts') :
    Agree ts' s s' :=
  fun n hn => h n fun hin => hn (hsub hin)

theorem agree_put (s : Store) (n : TableName) (t : n.Contents) : Agree [n] s (s.put n t) := by
  intro m hm
  have hne : m ≠ n := fun h => hm (List.mem_singleton.mpr h)
  cases n <;> cases m <;> first | rfl | exact absurd rfl hne

/-! ### Handlers -/

/-- What the handler commits agrees with `s` outside `ts`. -/
def Writes {α : Type} (ts : List TableName) (s : Store) (x : Except Error (α × Store)) : Prop :=
  ∀ r, x = .ok r → Agree ts s r.2

variable {α β : Type} {ts : List TableName} {s : Store}

theorem Writes.pure {a : α} {s' : Store} (h : Agree ts s s') :
    Writes ts s (Pure.pure (a, s') : Except Error (α × Store)) := by
  intro r hr
  obtain rfl := pure_eq_ok.mp hr
  exact h

theorem Writes.bind {x : Except Error β} {f : β → Except Error (α × Store)}
    (h : ∀ b, Writes ts s (f b)) : Writes ts s (x >>= f) := by
  intro r hr
  obtain ⟨b, _, hb⟩ := bind_eq_ok.mp hr
  exact h b r hb

theorem Writes.bindStore {x : Except Error (β × Store)} {f : β × Store → Except Error (α × Store)}
    (hx : Writes ts s x) (h : ∀ b, Agree ts s b.2 → Writes ts s (f b)) : Writes ts s (x >>= f) := by
  intro r hr
  obtain ⟨b, hb, hf⟩ := bind_eq_ok.mp hr
  exact h b (hx b hb) r hf

theorem Writes.committed {x : Except Error (α × Store)} (h : Writes ts s x) :
    Agree ts s (committed s x) := by
  cases x with
  | error e => exact Agree.refl ts s
  | ok r => exact h r rfl

theorem Writes.found {o : Option (α × Store)} {e : Error} (h : ∀ r, o = some r → Agree ts s r.2) :
    Writes ts s (found o e) :=
  fun r hr => h r (found_eq_ok.mp hr)

/-! ### Bookings and payments -/

section

variable {env : Env} {token : Bearer}

theorem createBooking_writes {now : ℤ} {data : BookingData} :
    Writes [.bookings] s (createBooking s now data) := by
  unfold createBooking
  exact .bind fun _ => .bind fun _ => .pure (agree_put s .bookings _)

theorem createBookingEndpoint_writes {data : BookingCreate} :
    Writes [.bookings] s (createBookingEndpoint env s token data) := by
  unfold createBookingEndpoint
  exact .bind fun _ => createBooking_writes

theorem updateBookingStatus_writes {bookingId : ℤ} {status : BookingStatus} {r : Booking × Store}
    (h : updateBookingStatus s bookingId status = some r) : Agree [.bookings] s r.2 := by
  unfold updateBookingStatus at h
  obtain ⟨b, _, h⟩ := Option.bind_eq_some_iff.mp h
  obtain ⟨b', _, h⟩ := Option.bind_eq_some_iff.mp h
  obtain rfl := Option.some.inj h
  exact agree_put s .bookings _

theorem cancelBookingEndpoint_writes {bookingId : ℤ} :
    Writes [.bookings] s (cancelBookingEndpoint s token bookingId) := by
  unfold cancelBookingEndpoint
  exact .bind fun _ => .bind fun _ => .found fun _ => updateBookingStatus_writes

theorem updateBooking_writes {bookingId : ℤ} {newStatus : String} :
    Writes [.bookings] s (updateBooking s token bookingId newStatus) := by
  unfold updateBooking
  exact .bind fun _ => .bind fun _ => .bind fun _ => .found fun _ => updateBookingStatus_writes

theorem createNotification_writes {now userId : ℤ} {title message type : String} :
    Writes [.notifications] s (createNotification s now userId title message type) := by
  unfold createNotification
  exact .bind fun _ => .pure (agree_put s .notifications _)

theorem checkInBooking_agree {bookingId : ℤ} :
    Agree [.bookings, .notifications] s (checkInBooking env s token bookingId).2 := by
  unfold checkInBooking
  simp only
  split
  · exact Agree.refl _ s
  next booking _ =>
    have hstatus : Agree [.bookings, .notifications] s
        (((updateBookingStatus s bookingId .completed).map Prod.snd).getD s) := by
      cases h : updateBookingStatus s bookingId .completed with
      | none => exact Agree.refl _ s
      | some r => exact (updateBookingStatus_writes h).mono (by decide)
    split
    · exact hstatus
    next hn => exact hstatus.trans ((createNotification_writes _ hn).mono (by decide))

theorem checkOutBooking_writes {bookingId : ℤ} :
    Writes [.notifications] s (checkOutBooking env s token bookingId) := by
  unfold checkOutBooking
  exact .bind fun _ => .bind fun _ => .bind fun _ => .bind fun _ => createNotification_writes

theorem createPayment_writes {now : ℤ} {c : PaymentCall} :
    Writes [.payments] s (createPayment s now c) := by
  unfold createPayment
  exact .bind fun _ => .bind fun _ => .bind fun _ => .pure (agree_put s .payments _)

theorem updatePaymentStatus_writes {paymentId : ℤ} {status : PaymentStatus}
    {transactionId : Option String} :
    Writes [.payments] s (updatePaymentStatus s paymentId status transactionId) := by
  unfold updatePaymentStatus
  split
  · exact .pure (Agree.refl _ s)
  · exact .bind fun _ => .pure (agree_put s .payments _)

theorem confirmBooking_writes {bookingId : ℤ} :
    Writes [.bookings] s (confirmBooking s bookingId) := by
  unfold confirmBooking
  exact .bind fun _ => .pure (agree_put s .bookings _)

theorem orRaise_agree {x : Except Error α} {next : α → PayPhase × Store}
    (h : ∀ a, x = .ok a → Agree ts s (next a).2) : Agree ts s (orRaise s x next).2 := by
  cases x with
  | error e => exact Agree.refl ts s
  | ok a => exact h a rfl

theorem payStep_writes {c : PaymentCall} {phase : PayPhase} (h : phase ≠ .settled) :
    Agree [.payments] s (payStep env c s phase).2 := by
  cases phase with
  | start => exact orRaise_agree fun _ _ => Agree.refl _ s
  | checked => exact orRaise_agree createPayment_writes
  | inserted paymentId =>
    unfold payStep
    cases env.gateway c.charge with
    | none => exact Agree.refl _ s
    | some transactionId => exact Agree.refl _ s
  | charged paymentId transactionId => exact orRaise_agree updatePaymentStatus_writes
  | declined paymentId => exact orRaise_agree updatePaymentStatus_writes
  | settled => exact absurd rfl h
  | finished result => exact Agree.refl _ s

theorem payStep_settled {c : PaymentCall} :
    (payStep env c s .settled).2 = committed s (confirmBooking s c.bookingId) := by
  unfold payStep
  cases confirmBooking s c.bookingId <;> rfl

theorem payStep_agree {c : PaymentCall} {phase : PayPhase} :
    Agree [.bookings, .payments] s (payStep env c s phase).2 := by
  by_cases h : phase = .settled
  · rw [h, payStep_settled]
    exact confirmBooking_writes.committed.mono (by decide)
  · exact (payStep_writes h).mono (by decide)

theorem payIter_agree (env : Env) (c : PaymentCall) (n : ℕ) (x : PayPhase × Store) :
    Agree [.bookings, .payments] x.2 ((payIter env c)^[n] x).2 := by
  induction n generalizing x with
  | zero => exact Agree.refl _ x.2
  | succ n ih => exact payStep_agree.trans (ih (payIter env c x))

theorem processPayment_agree {c : PaymentCall} :
    Agree [.bookings, .payments] s (processPayment env s c).2 := by
  have h := payIter_agree env c 5 (.start, s)
  rw [payIter_start] at h
  exact h

theorem makePayment_agree {data : PaymentRequest} :
    Agree [.bookings, .payments] s (makePayment env s token data).2 := by
  rcases makePayment_cases env s token data with h | ⟨user, _, h⟩
  · rw [h]
    exact Agree.refl _ s
  · rw [h]
    exact processPayment_agree

end

/-! ### Accounts -/

section

variable {ext : Ext} {env : Env} {token : Bearer}

theorem createUser_writes {user : User} : Writes [.users] s (createUser s user) := by
  unfold createUser
  exact .bind fun _ => .pure (agree_put s .users _)

theorem updateUser_writes {userId : ℤ} {f : User → User} :
    Writes [.users] s (updateUser s userId f) := by
  unfold updateUser
  split
  · exact .pure (Agree.refl _ s)
  · exact .bind fun _ => .pure (agree_put s .users _)

theorem registerUser_writes {data : RegisterRequest} :
    Writes [.users] s (registerUser ext env s data) :=
  createUser_writes

theorem registerVerified_writes {email fullName : String} {photoUrl : Option String} :
    Writes [.users] s (registerVerified ext env s email fullName photoUrl) :=
  createUser_writes

theorem socialLogin_writes {reply : Option ProviderUser} :
    Writes [.users] s (socialLogin ext env s reply) := by
  unfold socialLogin
  refine .bind fun profile => .bind fun _ => ?_
  split
  · exact .pure (Agree.refl _ s)
  · exact .bindStore registerVerified_writes fun _ h => .pure h

theorem googleLogin_writes {reply : Except String ProviderUser} :
    Writes [.users] s (googleLogin ext env s reply) := by
  unfold googleLogin
  refine .bind fun profile => .bind fun _ => ?_
  split
  · exact .bindStore registerVerified_writes fun _ h => .pure h
  · simp only
    split
    · exact .pure (Agree.refl _ s)
    · split
      · exact .bindStore updateUser_writes fun _ h => .pure h
      · exact .pure (Agree.refl _ s)

theorem verifyEmail_writes {secret : String} :
    Writes [.users, .emailVerifications] s (verifyEmail env s secret) := by
  unfold verifyEmail
  refine .bind fun record => ?_
  refine .pure fun n hn => ?_
  cases n <;> first | rfl | exact absurd (by decide) hn

theorem resendVerification_writes {email : String} :
    Writes [.emailVerifications] s (resendVerification ext env s email) := by
  unfold resendVerification
  split
  · exact .pure (Agree.refl _ s)
  · split
    · exact .pure (Agree.refl _ s)
    · exact .bind fun _ => .pure (agree_put s .emailVerifications _)

theorem forgotPassword_writes {email : String} :
    Writes [.passwordResets] s (forgotPassword ext env s email) := by
  unfold forgotPassword
  split
  · exact .pure (Agree.refl _ s)
  · exact .bind fun _ => .pure (agree_put s .passwordResets _)

theorem resetPassword_writes {secret new : String} :
    Writes [.users, .passwordResets] s (resetPassword ext env s secret new) := by
  unfold resetPassword
  refine .bind fun record => .bind fun _ => ?_
  refine .pure fun n hn => ?_
  cases n <;> first | rfl | exact absurd (by decide) hn

theorem updateProfile_writes {data : ProfileUpdate} :
    Writes [.users] s (updateProfile ext s token data) := by
  unfold updateProfile
  exact .bind fun _ => .bindStore updateUser_writes fun _ h => .bind fun _ => .pure h

theorem changePassword_writes {data : PasswordChange} :
    Writes [.users] s (changePassword ext env s token data) := by
  unfold changePassword
  exact .bind fun _ => .bind fun _ => updateUser_writes

theorem setPhoto_writes {photoUrl : Option String} :
    Writes [.users] s (setPhoto s token photoUrl) := by
  unfold setPhoto
  exact .bind fun _ => .bindStore updateUser_writes fun _ h => .bind fun _ => .pure h

theorem uploadPhoto_writes {contentType : String} {size : ℕ} {uploaded : Option String} :
    Writes [.users] s (uploadPhoto s token contentType size uploaded) := by
  unfold uploadPhoto
  exact .bind fun _ => .bind fun _ => .bind fun _ => .bind fun _ => setPhoto_writes

/-! ### Reviews, notifications, wishlist -/

theorem createReview_writes {now userId hotelId rating : ℤ} {comment : Option String} :
    Writes [.reviews] s (createReview s now userId hotelId rating comment) := by
  unfold createReview
  exact .bind fun _ => .pure (agree_put s .reviews _)

theorem submitReview_writes {data : ReviewCreate} :
    Writes [.reviews] s (submitReview env s token data) := by
  unfold submitReview
  exact .bind fun _ => .bind fun _ => .bind fun _ => .bind fun _ => createReview_writes

theorem updateReview_writes {reviewId userId : ℤ} {data : ReviewUpdate} :
    Writes [.reviews] s (updateReview s reviewId userId data) := by
  unfold updateReview
  split
  · exact .pure (Agree.refl _ s)
  · exact .bind fun _ => .pure (agree_put s .reviews _)

theorem editReview_writes {reviewId : ℤ} {data : ReviewUpdate} :
    Writes [.reviews] s (editReview s token reviewId data) := by
  unfold editReview
  exact .bind fun _ => .bindStore updateReview_writes fun _ h => .bind fun _ => .pure h

theorem deleteReview_agree {reviewId userId : ℤ} :
    Agree [.reviews] s (deleteReview s reviewId userId).2 := by
  unfold deleteReview
  split
  · exact Agree.refl _ s
  · exact agree_put s .reviews _

theorem removeReview_writes {reviewId : ℤ} :
    Writes [.reviews] s (removeReview s token reviewId) := by
  unfold removeReview
  exact .bind fun _ => .bind fun _ => .pure deleteReview_agree

theorem readNotification_writes {notificationId : ℤ} :
    Writes [.notifications] s (readNotification s token notificationId) := by
  unfold readNotification markRead
  refine .bind fun _ => .found fun r hr => ?_
  obtain ⟨n, _, hr⟩ := Option.bind_eq_some_iff.mp hr
  obtain rfl := Option.some.inj hr
  exact agree_put s .notifications _

theorem readAllNotifications_writes :
    Writes [.notifications] s (readAllNotifications s token) := by
  unfold readAllNotifications
  exact .bind fun _ => .pure (agree_put s .notifications _)

theorem saveItem_writes {target : WishTarget} :
    Writes [.wishlistItems] s (saveItem env s token target) := by
  unfold saveItem
  refine .bind fun user => ?_
  split
  · exact .pure (Agree.refl _ s)
  · exact .bind fun _ => .pure (agree_put s .wishlistItems _)

theorem unsaveItem_writes {target : WishTarget} {detail : String} :
    Writes [.wishlistItems] s (unsaveItem s token target detail) := by
  unfold unsaveItem
  exact .bind fun _ => .bind fun _ => .pure (agree_put s .wishlistItems _)

/-! ### Inventory -/

theorem createHotel_writes {data : HotelCreate} : Writes [.hotels] s (createHotel env s data) := by
  unfold createHotel
  exact .bind fun _ => .pure (agree_put s .hotels _)

theorem updateHotel_writes {hotelId : ℤ} {data : HotelUpdate} :
    Writes [.hotels] s (updateHotel s hotelId data) := by
  unfold updateHotel
  exact .bind fun _ => .bind fun _ => .bind fun _ => .pure (agree_put s .hotels _)

theorem deleteHotel_writes {hotelId : ℤ} :
    Writes [.hotels, .roomTypes, .pricingRules] s (deleteHotel s hotelId) := by
  unfold deleteHotel
  refine .bind fun hotel => .bind fun _ => .bind fun _ => ?_
  refine .pure fun n hn => ?_
  cases n <;> first | rfl | exact absurd (by decide) hn

theorem createRoomType_writes {data : RoomTypeCreate} :
    Writes [.roomTypes] s (createRoomType s token data) := by
  unfold createRoomType
  exact .bind fun _ => .bind fun _ => .pure (agree_put s .roomTypes _)

theorem updateRoomType_writes {typeId : ℤ} {data : RoomTypeCreate} :
    Writes [.roomTypes] s (updateRoomType s token typeId data) := by
  unfold updateRoomType
  exact .bind fun _ => .bind fun _ => .pure (agree_put s .roomTypes _)

theorem deleteRoomType_writes {typeId : ℤ} :
    Writes [.roomTypes] s (deleteRoomType s token typeId) := by
  unfold deleteRoomType
  exact .bind fun _ => .bind fun _ => .bind fun _ => .pure (agree_put s .roomTypes _)

theorem createRoom_writes {data : RoomCreate} : Writes [.rooms] s (createRoom s token data) := by
  unfold createRoom
  exact .bind fun _ => .bind fun _ => .bind fun _ => .pure (agree_put s .rooms _)

theorem writeRoom_writes {roomId hotelId : ℤ} {data : RoomUpdate} :
    Writes [.rooms] s (writeRoom s roomId hotelId data) := by
  unfold writeRoom
  exact .bind fun _ => .bind fun _ => .bind fun _ => .pure (agree_put s .rooms _)

theorem updateRoom_writes {roomId : ℤ} {data : RoomUpdate} :
    Writes [.rooms] s (updateRoom s token roomId data) := by
  unfold updateRoom
  exact .bind fun _ => writeRoom_writes

theorem deleteRoom_writes {roomId : ℤ} : Writes [.rooms] s (deleteRoom s token roomId) := by
  rw [deleteRoom_eq]
  exact updateRoom_writes

theorem createPricingRule_writes {data : PricingRuleCreate} :
    Writes [.pricingRules] s (createPricingRule env s token data) := by
  unfold createPricingRule
  exact .bind fun _ => .bind fun _ => .bind fun _ => .bind fun _ =>
    .pure (agree_put s .pricingRules _)

theorem deletePricingRule_writes {ruleId : ℤ} :
    Writes [.pricingRules] s (deletePricingRule s token ruleId) := by
  unfold deletePricingRule
  exact .bind fun _ => .bind fun _ => .pure (agree_put s .pricingRules _)

theorem createBlackout_writes {data : BlackoutCreate} :
    Writes [.blackoutDates] s (createBlackout s token data) := by
  unfold createBlackout
  exact .bind fun _ => .bind fun _ => .pure (agree_put s .blackoutDates _)

theorem deleteBlackout_writes {blackoutId : ℤ} :
    Writes [.blackoutDates] s (deleteBlackout s token blackoutId) := by
  unfold deleteBlackout
  exact .bind fun _ => .bind fun _ => .pure (agree_put s .blackoutDates _)

/-! ### User administration -/

theorem addUser_writes {data : UserAdminCreate} :
    Writes [.users] s (addUser ext env s token data) := by
  unfold addUser
  exact .bind fun _ => .bind fun _ => .bind fun _ => createUser_writes

theorem adminEdit_writes {userId : ℤ} {missing : Error} {f : User → User} :
    Writes [.users] s (adminEdit s token userId missing f) := by
  unfold adminEdit
  exact .bind fun _ => .bind fun _ => .bindStore updateUser_writes fun _ h => .bind fun _ => .pure h

theorem editUser_writes {userId : ℤ} {data : UserAdminUpdate} :
    Writes [.users] s (editUser ext s token userId data) := by
  unfold editUser
  exact .bind fun _ => .bind fun _ => .bind fun _ => .bind fun _ => adminEdit_writes

theorem removeUser_writes {userId : ℤ} :
    Writes [.users, .guestNotes] s (removeUser s token userId) := by
  unfold removeUser
  refine .bind fun _ => .bind fun _ => .bind fun _ => .bind fun _ => ?_
  refine .pure fun n hn => ?_
  cases n <;> first | rfl | exact absurd (by decide) hn

theorem addGuestNote_writes {userId : ℤ} {body : NoteCreate} :
    Writes [.guestNotes] s (addGuestNote env s token userId body) := by
  unfold addGuestNote
  exact .bind fun _ => .bind fun _ => .bind fun _ => .pure (agree_put s .guestNotes _)

theorem deleteGuestNote_writes {userId noteId : ℤ} :
    Writes [.guestNotes] s (deleteGuestNote s token userId noteId) := by
  unfold deleteGuestNote
  exact .bind fun _ => .bind fun _ => .bind fun _ => .pure (agree_put s .guestNotes _)

end

/-! ### Requests -/

def PublicRequest.writes : PublicRequest → List TableName
  | .register _ | .socialLogin _ | .googleLogin _ => [.users]
  | .login _ _ => []
  | .verifyEmail _ => [.users, .emailVerifications]
  | .resendVerification _ => [.emailVerifications]
  | .forgotPassword _ => [.passwordResets]
  | .resetPassword _ _ => [.users, .passwordResets]

def GuestRequest.writes : GuestRequest → List TableName
  | .createBooking _ | .cancelBooking _ => [.bookings]
  | .makePayment _ => [.bookings, .payments]
  | .submitReview _ | .editReview _ _ | .removeReview _ => [.reviews]
  | .readNotification _ | .readAllNotifications => [.notifications]
  | .addToWishlist _ | .removeFromWishlist _ | .saveRoom _ | .unsaveRoom _ => [.wishlistItems]
  | .updateProfile _ | .changePassword _ => [.users]

def DeskRequest.writes : DeskRequest → List TableName
  | .checkIn _ => [.bookings, .notifications]
  | .checkOut _ => [.notifications]
  | .update _ _ => [.bookings]

def HotelRequest.writes : HotelRequest → List TableName
  | .create _ | .update _ _ => [.hotels]
  | .delete _ => [.hotels, .roomTypes, .pricingRules]

def UserRequest.writes : UserRequest → List TableName
  | .remove _ => [.users, .guestNotes]
  | .addNote _ _ | .deleteNote _ _ => [.guestNotes]
  | _ => [.users]

def Request.writes : Request → List TableName
  | .auth r => r.writes
  | .guest r => r.writes
  | .photo _ => [.users]
  | .desk r => r.writes
  | .hotel r => r.writes
  | .roomType _ => [.roomTypes]
  | .room _ => [.rooms]
  | .pricing _ => [.pricingRules]
  | .blackout _ => [.blackoutDates]
  | .user r => r.writes
  | .read => []

/-- The requests that can change a booking. -/
inductive Request.Books : Request → Prop
  | create (data : BookingCreate) : Books (.guest (.createBooking data))
  | cancel (bookingId : ℤ) : Books (.guest (.cancelBooking bookingId))
  | pay (data : PaymentRequest) : Books (.guest (.makePayment data))
  | checkIn (bookingId : ℤ) : Books (.desk (.checkIn bookingId))
  | override (bookingId : ℤ) (newStatus : String) : Books (.desk (.update bookingId newStatus))

theorem Request.books_of_writes {r : Request} (h : .bookings ∈ r.writes) : r.Books := by
  cases r with
  | guest r =>
    cases r with
    | createBooking data => exact .create data
    | cancelBooking bookingId => exact .cancel bookingId
    | makePayment data => exact .pay data
    | _ => simp [Request.writes, GuestRequest.writes] at h
  | desk r =>
    cases r with
    | checkIn bookingId => exact .checkIn bookingId
    | checkOut bookingId => simp [Request.writes, DeskRequest.writes] at h
    | update bookingId newStatus => exact .override bookingId newStatus
  | auth r => cases r <;> simp [Request.writes, PublicRequest.writes] at h
  | hotel r => cases r <;> simp [Request.writes, HotelRequest.writes] at h
  | user r => cases r <;> simp [Request.writes, UserRequest.writes] at h
  | _ => simp [Request.writes] at h

section

variable (ext : Ext) (env : Env) (s : Store) (token : Bearer)

theorem servePublic_agree (r : PublicRequest) : Agree r.writes s (servePublic ext env s r) := by
  cases r with
  | register data => exact registerUser_writes.committed
  | login email password => exact Agree.refl _ s
  | socialLogin reply => exact socialLogin_writes.committed
  | googleLogin reply => exact googleLogin_writes.committed
  | verifyEmail secret => exact verifyEmail_writes.committed
  | resendVerification email => exact resendVerification_writes.committed
  | forgotPassword email => exact forgotPassword_writes.committed
  | resetPassword secret new => exact resetPassword_writes.committed

theorem serveGuest_agree (r : GuestRequest) : Agree r.writes s (serveGuest ext env s token r) := by
  cases r with
  | createBooking data => exact createBookingEndpoint_writes.committed
  | cancelBooking bookingId => exact cancelBookingEndpoint_writes.committed
  | makePayment data => exact makePayment_agree
  | submitReview data => exact submitReview_writes.committed
  | editReview reviewId data => exact editReview_writes.committed
  | removeReview reviewId => exact removeReview_writes.committed
  | readNotification notificationId => exact readNotification_writes.committed
  | readAllNotifications => exact readAllNotifications_writes.committed
  | addToWishlist hotelId => exact saveItem_writes.committed
  | removeFromWishlist hotelId => exact unsaveItem_writes.committed
  | saveRoom roomId => exact saveItem_writes.committed
  | unsaveRoom roomId => exact unsaveItem_writes.committed
  | updateProfile data => exact updateProfile_writes.committed
  | changePassword data => exact changePassword_writes.committed

theorem servePhoto_agree (r : PhotoRequest) : Agree [.users] s (servePhoto s token r) := by
  cases r with
  | delete => exact setPhoto_writes.committed
  | upload contentType size uploaded => exact uploadPhoto_writes.committed

theorem serveDesk_agree (r : DeskRequest) : Agree r.writes s (serveDesk env s token r) := by
  cases r with
  | checkIn bookingId => exact checkInBooking_agree
  | checkOut bookingId => exact checkOutBooking_writes.committed
  | update bookingId newStatus => exact updateBooking_writes.committed

theorem serveHotel_agree (r : HotelRequest) : Agree r.writes s (serveHotel env s r) := by
  cases r with
  | create data => exact createHotel_writes.committed
  | update hotelId data => exact updateHotel_writes.committed
  | delete hotelId => exact deleteHotel_writes.committed

theorem serveRoomType_agree (r : RoomTypeRequest) :
    Agree [.roomTypes] s (serveRoomType s token r) := by
  cases r with
  | create data => exact createRoomType_writes.committed
  | update typeId data => exact updateRoomType_writes.committed
  | delete typeId => exact deleteRoomType_writes.committed

theorem serveRoom_agree (r : RoomRequest) : Agree [.rooms] s (serveRoom s token r) := by
  cases r with
  | create data => exact createRoom_writes.committed
  | update roomId data => exact updateRoom_writes.committed
  | delete roomId => exact deleteRoom_writes.committed

theorem servePricing_agree (r : PricingRequest) :
    Agree [.pricingRules] s (servePricing env s token r) := by
  cases r with
  | create data => exact createPricingRule_writes.committed
  | delete ruleId => exact deletePricingRule_writes.committed

theorem serveBlackout_agree (r : BlackoutRequest) :
    Agree [.blackoutDates] s (serveBlackout s token r) := by
  cases r with
  | create data => exact createBlackout_writes.committed
  | delete blackoutId => exact deleteBlackout_writes.committed

theorem serveUser_agree (r : UserRequest) : Agree r.writes s (serveUser ext env s token r) := by
  cases r with
  | add data => exact addUser_writes.committed
  | edit userId data => exact editUser_writes.committed
  | remove userId => exact removeUser_writes.committed
  | addNote userId body => exact addGuestNote_writes.committed
  | deleteNote userId noteId => exact deleteGuestNote_writes.committed
  | ban userId body => exact adminEdit_writes.committed
  | toggleVip userId => exact adminEdit_writes.committed
  | loyalty userId body => exact adminEdit_writes.committed
  | segment userId label => exact adminEdit_writes.committed
  | blacklist userId body => exact adminEdit_writes.committed

/-- A request changes only the tables of its footprint. -/
theorem serve_agree (r : Request) : Agree r.writes s (serve ext env s token r) := by
  cases r with
  | auth r => exact servePublic_agree ext env s r
  | guest r => exact serveGuest_agree ext env s token r
  | photo r => exact servePhoto_agree s token r
  | desk r => exact serveDesk_agree env s token r
  | hotel r => exact serveHotel_agree env s r
  | roomType r => exact serveRoomType_agree s token r
  | room r => exact serveRoom_agree s token r
  | pricing r => exact servePricing_agree env s token r
  | blackout r => exact serveBlackout_agree s token r
  | user r => exact serveUser_agree ext env s token r
  | read => exact Agree.refl _ s

end

end HotelMs
