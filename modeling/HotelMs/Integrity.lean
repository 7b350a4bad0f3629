import HotelMs.Constraints

/-!
# Guests' requests keep the constraints

Bookings, payments, accounts, reviews, notifications and wishlists. A new row
refers to what was looked up or just read; a step that commits on its own keeps
the constraints on its own, whatever others committed before it.
-/

namespace HotelMs

open Tables References

variable {s : Store}

/-! ### Bookings and notifications -/

section

variable {env : Env} {token : Bearer}

theorem Store.Sound.setStatus (h : s.Sound) (bookingId : ℤ) (status : BookingStatus) :
    (setStatus s bookingId status).Sound := by
  refine h.put (n := .bookings) (fun _ => keys_subset_updateWhere _) ?_ trivial
  exact links_update_subset _ fun r _ p hp => Or.inl hp

theorem createBooking_keeps {now : ℤ} {data : BookingData} :
    StaysSound s (createBooking s now data) := by
  intro r hr h
  obtain ⟨price, _, ⟨hhotel, huser, hroom⟩, rfl⟩ := createBooking_eq_ok.mp hr
  refine h.put (n := .bookings) (fun _ => keys_subset_insert _) ?_ trivial
  refine links_insert_subset _ ?_
  simp only [Linked.links, BookingData.row, List.forall_mem_cons, List.not_mem_nil]
  exact ⟨present_hotel.mpr hhotel, present_user.mpr huser, present_room.mpr hroom,
    fun _ hnone => hnone.elim⟩

theorem updateBookingStatus_keeps {bookingId : ℤ} {status : BookingStatus} {r : Booking × Store}
    (hr : updateBookingStatus s bookingId status = some r) (h : s.Sound) : r.2.Sound := by
  obtain ⟨b, _, rfl⟩ := updateBookingStatus_eq_some.mp hr
  exact h.setStatus bookingId status

theorem createNotification_keeps {now userId : ℤ} {title message type : String} :
    StaysSound s (createNotification s now userId title message type) := by
  intro r hr h
  simp only [createNotification, bind_eq_ok, ensure_eq_ok, pure_eq_ok] at hr
  obtain ⟨_, huser, rfl⟩ := hr
  refine h.putLeaf (n := .notifications) rfl ?_ trivial
  refine links_insert_subset _ ?_
  simp only [Linked.links, List.forall_mem_cons, List.not_mem_nil]
  exact ⟨present_user.mpr huser, fun _ hnone => hnone.elim⟩

theorem createBookingEndpoint_keeps {data : BookingCreate} :
    StaysSound s (createBookingEndpoint env s token data) := by
  unfold createBookingEndpoint
  exact .bind fun _ _ => createBooking_keeps

theorem cancelBookingEndpoint_keeps {bookingId : ℤ} :
    StaysSound s (cancelBookingEndpoint s token bookingId) := by
  unfold cancelBookingEndpoint
  exact .bind fun _ _ => .bind fun _ _ => .found fun _ => updateBookingStatus_keeps

theorem updateBooking_keeps {bookingId : ℤ} {newStatus : String} :
    StaysSound s (updateBooking s token bookingId newStatus) := by
  unfold updateBooking
  exact .bind fun _ _ => .bind fun _ _ => .bind fun _ _ =>
    .found fun _ => updateBookingStatus_keeps

/-- Also when the notification fails after the first commit. -/
theorem checkInBooking_keeps (bookingId : ℤ) (h : s.Sound) :
    (checkInBooking env s token bookingId).2.Sound := by
  unfold checkInBooking
  simp only
  split
  · exact h
  next booking _ =>
    have hstatus : (((updateBookingStatus s bookingId .completed).map Prod.snd).getD s).Sound := by
      cases hr : updateBookingStatus s bookingId .completed with
      | none => exact h
      | some r => exact updateBookingStatus_keeps hr h
    split
    · exact hstatus
    next hn => exact createNotification_keeps _ hn hstatus

theorem checkOutBooking_keeps {bookingId : ℤ} :
    StaysSound s (checkOutBooking env s token bookingId) := by
  unfold checkOutBooking
  exact .bind fun _ _ => .bind fun _ _ => .bind fun _ _ => .bind fun _ _ =>
    createNotification_keeps

/-! ### Payments -/

theorem createPayment_keeps {now : ℤ} {c : PaymentCall} : StaysSound s (createPayment s now c) := by
  intro r hr h
  simp only [createPayment, bind_eq_ok, ensure_eq_ok, found_eq_ok, pure_eq_ok] at hr
  obtain ⟨amount, _, currency, _, _, ⟨hmethod, hbooking, huser⟩, rfl⟩ := hr
  obtain ⟨hunique, hmethods⟩ := h.obeyed .payments
  refine h.putLeaf (n := .payments) rfl ?_ ⟨?_, ?_⟩
  · refine links_insert_subset _ ?_
    simp only [Linked.links, paymentRow, List.forall_mem_cons, List.not_mem_nil]
    exact ⟨present_booking.mpr hbooking, present_user.mpr huser, fun _ hnone => hnone.elim⟩
  · exact uniqueBy_insert hunique (fun _ => rfl) fun hsome => by cases hsome
  · intro p hp
    rcases (Table.mem_insert _).mp hp with hp | rfl
    · exact hmethods p hp
    · exact hmethod

theorem updatePaymentStatus_keeps {paymentId : ℤ} {status : PaymentStatus}
    {transactionId : Option String} :
    StaysSound s (updatePaymentStatus s paymentId status transactionId) := by
  unfold updatePaymentStatus
  split
  · exact .pure id
  next payment hget =>
    refine .bind fun _ hfree => .pure fun h => ?_
    have hother := ensure_eq_ok.mp hfree
    obtain ⟨hunique, hmethods⟩ := h.obeyed .payments
    refine h.putLeaf (n := .payments) rfl ?_ ⟨?_, ?_⟩
    · exact links_update_subset _ fun r _ p hp => Or.inl hp
    · refine uniqueBy_update hunique fun r hr => Or.inr fun r' hr' hne hsome heq => ?_
      obtain rfl : payment = r := Option.some.inj (hget.symm.trans hr)
      exact hother ⟨r', hr', hne, hsome, heq⟩
    · intro p hp
      obtain ⟨p₀, hp₀, rfl⟩ := (Table.mem_update _).mp hp
      split
      · exact hmethods p₀ hp₀
      · exact hmethods p₀ hp₀

theorem confirmBooking_keeps {bookingId : ℤ} : StaysSound s (confirmBooking s bookingId) := by
  unfold confirmBooking
  exact .bind fun _ _ => .pure fun h => h.setStatus bookingId .confirmed

theorem orRaise_keeps {α : Type} {x : Except Error α} {next : α → PayPhase × Store}
    (h : s.Sound) (hnext : ∀ a, x = .ok a → (next a).2.Sound) :
    (orRaise s x next).2.Sound := by
  cases x with
  | error e => exact h
  | ok a => exact hnext a rfl

/-- Each commit of a payment call by itself, whatever others committed before it. -/
theorem payStep_keeps (c : PaymentCall) (phase : PayPhase) (h : s.Sound) :
    (payStep env c s phase).2.Sound := by
  cases phase with
  | start => exact orRaise_keeps h fun _ _ => h
  | checked => exact orRaise_keeps h fun r hr => createPayment_keeps r hr h
  | inserted paymentId =>
    unfold payStep
    cases env.gateway c.charge with
    | none => exact h
    | some transactionId => exact h
  | charged paymentId transactionId =>
    exact orRaise_keeps h fun r hr => updatePaymentStatus_keeps r hr h
  | declined paymentId => exact orRaise_keeps h fun r hr => updatePaymentStatus_keeps r hr h
  | settled => exact orRaise_keeps h fun r hr => confirmBooking_keeps r hr h
  | finished result => exact h

theorem payIter_keeps (c : PaymentCall) (n : ℕ) (x : PayPhase × Store) (h : x.2.Sound) :
    ((payIter env c)^[n] x).2.Sound := by
  induction n generalizing x with
  | zero => exact h
  | succ n ih => exact ih (payIter env c x) (payStep_keeps c x.1 h)

theorem processPayment_keeps (c : PaymentCall) (h : s.Sound) :
    (processPayment env s c).2.Sound := by
  have hsteps : ((payIter env c)^[5] (.start, s)).2.Sound := payIter_keeps c 5 (.start, s) h
  rw [payIter_start] at hsteps
  exact hsteps

theorem makePayment_keeps (data : PaymentRequest) (h : s.Sound) :
    (makePayment env s token data).2.Sound := by
  rcases makePayment_cases env s token data with heq | ⟨user, _, heq⟩
  · rw [heq]
    exact h
  · rw [heq]
    exact processPayment_keeps _ h

end

/-! ### Accounts -/

section

variable {ext : Ext} {env : Env} {token : Bearer}

theorem mem_links_user {u : User} {p : RowRef} :
    p ∈ Linked.links u ↔ ∃ h ∈ u.hotelId, (.hotels, h) = p := mem_refTo

theorem emails_free {u : User} (hfits : userFits s u) :
    ∀ r ∈ s.users.rows, r.id ≠ u.id → some r.email ≠ some u.email := by
  intro r hr hne heq
  have hnone := (Table.any_eq_false _).mp hfits.1 r hr
  simp only [Bool.and_eq_false_iff, decide_eq_false_iff_not, not_not] at hnone
  rcases hnone with hemail | hid
  · exact hemail (Option.some.inj heq)
  · exact hne hid

theorem hotel_present {u : User} (hfits : userFits s u) :
    ∀ p ∈ Linked.links u, p ∈ schema.present s := by
  intro p hp
  obtain ⟨h, hh, rfl⟩ := mem_links_user.mp hp
  exact present_hotel.mpr (hfits.2 h hh)

theorem createUser_keeps {u : User} (hid : u.id = s.users.next) :
    StaysSound s (createUser s u) := by
  intro r hr h
  obtain ⟨hfits, rfl⟩ := createUser_eq_ok.mp hr
  refine h.put (n := .users) (fun _ => keys_subset_insert _) ?_ ?_
  · exact links_insert_subset _ (hotel_present hfits)
  · refine uniqueBy_insert (h.obeyed .users) (fun _ => rfl) fun _ r hr => ?_
    exact emails_free hfits r hr (hid ▸ Table.key_ne_next _ hr)

theorem updateUser_keeps {userId : ℤ} {f : User → User} (hf : ∀ u, (f u).id = u.id) :
    StaysSound s (updateUser s userId f) := by
  unfold updateUser
  split
  · exact .pure id
  next user hget =>
    refine .bind fun _ hfree => .pure fun h => ?_
    have hfits := ensure_eq_ok.mp hfree
    have hid : (f user).id = userId := (hf user).trans ((Table.get_eq_some _).mp hget).2
    have hsame : ∀ r, s.users.get userId = some r → r = user := fun r hr =>
      Option.some.inj (hr.symm.trans hget)
    refine h.put (n := .users) (fun _ => keys_subset_updateWhere _) ?_ ?_
    · refine links_update_subset _ fun r hr p hp => Or.inr ?_
      rw [hsame r hr] at hp
      exact hotel_present hfits p hp
    · refine uniqueBy_update (h.obeyed .users) fun r hr => Or.inr fun r' hr' hne _ => ?_
      rw [hsame r hr]
      exact emails_free hfits r' hr' (hid ▸ hne)

/-- A change that the constraints do not see goes unchecked. -/
theorem Store.Sound.updateUsers (h : s.Sound) (userId : ℤ) {f : User → User}
    (hemail : ∀ u, (f u).email = u.email) (hhotel : ∀ u, (f u).hotelId = u.hotelId) :
    (s.put .users (s.users.update userId f)).Sound := by
  refine h.put (fun _ => keys_subset_updateWhere _) ?_ ?_
  · refine links_update_subset _ fun r _ p hp => Or.inl ?_
    rw [mem_links_user] at hp ⊢
    rwa [hhotel] at hp
  · exact Table.UniqueBy.update (h.obeyed .users) fun r => congrArg some (hemail r)

theorem registerUser_keeps {data : RegisterRequest} :
    StaysSound s (registerUser ext env s data) := createUser_keeps rfl

theorem registerVerified_keeps {email fullName : String} {photoUrl : Option String} :
    StaysSound s (registerVerified ext env s email fullName photoUrl) := createUser_keeps rfl

theorem socialLogin_keeps {reply : Option ProviderUser} :
    StaysSound s (socialLogin ext env s reply) := by
  unfold socialLogin
  refine .bind fun profile _ => .bind fun _ _ => ?_
  split
  · exact .pure id
  · exact .bindStore registerVerified_keeps fun _ _ => .pure id

theorem googleLogin_keeps {reply : Except String ProviderUser} :
    StaysSound s (googleLogin ext env s reply) := by
  unfold googleLogin
  refine .bind fun profile _ => .bind fun _ _ => ?_
  split
  · exact .bindStore registerVerified_keeps fun _ _ => .pure id
  · simp only
    split
    · exact .pure id
    · split
      · exact .bindStore (updateUser_keeps fun _ => rfl) fun _ _ => .pure id
      · exact .pure id

theorem createOneTimeToken_eq_ok {t t' : Table OneTimeToken} {userId ttl : ℤ} :
    createOneTimeToken t env userId ttl = .ok t' ↔ (∀ r ∈ t.rows, r.token ≠ env.token) ∧
      t' = t.insert ⟨t.next, userId, env.token, env.now + ttl, none⟩ := by
  simp only [createOneTimeToken, bind_eq_ok, ensure_eq_ok, pure_eq_ok, Table.any_eq_false,
    decide_eq_false_iff_not, ne_eq]
  constructor
  · intro h
    obtain ⟨_, hfree, rfl⟩ := h
    exact ⟨hfree, rfl⟩
  · intro h
    exact ⟨(), h.1, h.2.symm⟩

/-- A token for a user that was just read. -/
theorem newToken_fits {t t' : Table OneTimeToken} {user : User} {email : String} {ttl : ℤ}
    (hunique : t.UniqueBy fun r => some r.token) (huser : getUserByEmail s email = some user)
    (ht : createOneTimeToken t env user.id ttl = .ok t') :
    (References.links t' ⊆ References.links t ∪ schema.present s) ∧
      t'.UniqueBy fun r => some r.token := by
  obtain ⟨hfree, rfl⟩ := createOneTimeToken_eq_ok.mp ht
  have hmem : user ∈ s.users.rows := ((Table.mem_select _).mp (List.mem_of_mem_head? huser)).1
  refine ⟨?_, ?_⟩
  · refine links_insert_subset _ ?_
    simp only [Linked.links, List.forall_mem_cons, List.not_mem_nil]
    exact ⟨⟨user, hmem, rfl⟩, fun _ hnone => hnone.elim⟩
  · refine uniqueBy_insert hunique (fun _ => rfl) fun _ r hr heq => ?_
    exact hfree r hr (Option.some.inj heq)

theorem resendVerification_keeps {email : String} :
    StaysSound s (resendVerification ext env s email) := by
  unfold resendVerification
  split
  · exact .pure id
  next user huser =>
    split
    · exact .pure id
    · refine .bind fun t ht => .pure fun h => ?_
      have hfits := newToken_fits (h.obeyed .emailVerifications) huser ht
      exact h.putLeaf (n := .emailVerifications) rfl hfits.1 hfits.2

theorem forgotPassword_keeps {email : String} : StaysSound s (forgotPassword ext env s email) := by
  unfold forgotPassword
  split
  · exact .pure id
  next user huser =>
    refine .bind fun t ht => .pure fun h => ?_
    have hfits := newToken_fits (h.obeyed .passwordResets) huser ht
    exact h.putLeaf (n := .passwordResets) rfl hfits.1 hfits.2

theorem links_useToken {t : Table OneTimeToken} {now : ℤ} {record : OneTimeToken}
    {seen : Set RowRef} : References.links (useToken t now record) ⊆ References.links t ∪ seen :=
  links_update_subset _ fun _ _ _ hp => Or.inl hp

theorem verifyEmail_keeps {secret : String} : StaysSound s (verifyEmail env s secret) := by
  unfold verifyEmail
  refine .bind fun record _ => .pure fun h => ?_
  have husers := h.updateUsers record.userId (f := fun u => { u with isEmailVerified := true })
    (fun _ => rfl) fun _ => rfl
  refine husers.putLeaf (n := .emailVerifications) rfl links_useToken ?_
  exact Table.UniqueBy.update (h.obeyed .emailVerifications) fun _ => rfl

theorem resetPassword_keeps {secret new : String} :
    StaysSound s (resetPassword ext env s secret new) := by
  unfold resetPassword
  refine .bind fun record _ => .bind fun _ _ => .pure fun h => ?_
  have husers := h.updateUsers record.userId
    (f := fun u => { u with hashedPassword := ext.hashpw env.salt new }) (fun _ => rfl)
    fun _ => rfl
  refine husers.putLeaf (n := .passwordResets) rfl links_useToken ?_
  exact Table.UniqueBy.update (h.obeyed .passwordResets) fun _ => rfl

theorem updateProfile_keeps {data : ProfileUpdate} :
    StaysSound s (updateProfile ext s token data) := by
  unfold updateProfile
  exact .bind fun _ _ => .bindStore (updateUser_keeps fun _ => rfl) fun _ _ =>
    .bind fun _ _ => .pure id

theorem changePassword_keeps {data : PasswordChange} :
    StaysSound s (changePassword ext env s token data) := by
  unfold changePassword
  exact .bind fun _ _ => .bind fun _ _ => updateUser_keeps fun _ => rfl

theorem setPhoto_keeps {photoUrl : Option String} : StaysSound s (setPhoto s token photoUrl) := by
  unfold setPhoto
  exact .bind fun _ _ => .bindStore (updateUser_keeps fun _ => rfl) fun _ _ =>
    .bind fun _ _ => .pure id

theorem uploadPhoto_keeps {contentType : String} {size : ℕ} {uploaded : Option String} :
    StaysSound s (uploadPhoto s token contentType size uploaded) := by
  unfold uploadPhoto
  exact .bind fun _ _ => .bind fun _ _ => .bind fun _ _ => .bind fun _ _ => setPhoto_keeps

/-! ### Reviews, notifications, wishlist -/

theorem createReview_keeps {now userId hotelId rating : ℤ} {comment : Option String} :
    StaysSound s (createReview s now userId hotelId rating comment) := by
  intro r hr h
  simp only [createReview, bind_eq_ok, ensure_eq_ok, pure_eq_ok] at hr
  obtain ⟨_, ⟨hrating, huser, hhotel⟩, rfl⟩ := hr
  refine h.putLeaf (n := .reviews) rfl ?_ ?_
  · refine links_insert_subset _ ?_
    simp only [Linked.links, List.forall_mem_cons, List.not_mem_nil]
    exact ⟨present_user.mpr huser, present_hotel.mpr hhotel, fun _ hnone => hnone.elim⟩
  · intro r hr
    rcases (Table.mem_insert _).mp hr with hr | rfl
    · exact h.obeyed .reviews r hr
    · exact hrating

theorem submitReview_keeps {data : ReviewCreate} :
    StaysSound s (submitReview env s token data) := by
  unfold submitReview
  exact .bind fun _ _ => .bind fun _ _ => .bind fun _ _ => .bind fun _ _ => createReview_keeps

/-- The check was made on the row as it was read, the update meets the row as it is. -/
theorem Store.Sound.updateReviews (h : s.Sound) {review : Review} {data : ReviewUpdate}
    (hrating : ratingRange (data.apply review).rating) :
    (s.put .reviews (s.reviews.update review.id data.apply)).Sound := by
  refine h.putLeaf rfl (links_update_subset _ fun r _ p hp => Or.inl hp) fun r hr => ?_
  obtain ⟨r₀, hr₀, rfl⟩ := (Table.mem_update _).mp hr
  have hold : ratingRange r₀.rating := h.obeyed .reviews r₀ hr₀
  split
  · cases hnew : data.rating with
    | none =>
      have hsame : (data.apply r₀).rating = r₀.rating := by simp [ReviewUpdate.apply, hnew]
      exact hsame ▸ hold
    | some rating =>
      have hsame : (data.apply r₀).rating = (data.apply review).rating := by
        simp [ReviewUpdate.apply, hnew]
      exact hsame ▸ hrating
  · exact hold

theorem Store.Sound.deleteReviews (h : s.Sound) (reviewId : ℤ) :
    (s.put .reviews (s.reviews.delete reviewId)).Sound := by
  refine h.putLeaf rfl (fun p hp => Or.inl (links_deleteWhere_subset _ hp)) fun r hr => ?_
  exact h.obeyed .reviews r ((Table.mem_deleteWhere _).mp hr).1

theorem updateReview_keeps {reviewId userId : ℤ} {data : ReviewUpdate} :
    StaysSound s (updateReview s reviewId userId data) := by
  unfold updateReview
  split
  · exact .pure id
  next review hown =>
    refine .bind fun _ hrange => .pure fun h => ?_
    obtain rfl := (getOwnReview_eq_some.mp hown).1.2
    exact h.updateReviews (ensure_eq_ok.mp hrange)

theorem editReview_keeps {reviewId : ℤ} {data : ReviewUpdate} :
    StaysSound s (editReview s token reviewId data) := by
  unfold editReview
  exact .bind fun _ _ => .bindStore updateReview_keeps fun _ _ => .bind fun _ _ => .pure id

theorem removeReview_keeps {reviewId : ℤ} : StaysSound s (removeReview s token reviewId) := by
  unfold removeReview
  refine .bind fun user _ => .bind fun _ _ => .pure fun h => ?_
  unfold deleteReview
  split
  · exact h
  · exact h.deleteReviews _

theorem readNotification_keeps {notificationId : ℤ} :
    StaysSound s (readNotification s token notificationId) := by
  unfold readNotification
  refine .bind fun user _ => .found fun r hr h => ?_
  obtain ⟨n, _, hn⟩ := Option.bind_eq_some_iff.mp hr
  obtain rfl := Option.some.inj hn
  exact h.putLeaf (n := .notifications) rfl
    (links_update_subset _ fun r _ p hp => Or.inl hp) trivial

theorem readAllNotifications_keeps : StaysSound s (readAllNotifications s token) := by
  unfold readAllNotifications
  refine .bind fun user _ => .pure fun h => ?_
  exact h.putLeaf (n := .notifications) rfl
    (links_updateWhere_subset _ fun r _ _ p hp => Or.inl hp) trivial

theorem caller_present {user : User} (h : getCurrentUser s token = .ok user) :
    (.users, user.id) ∈ schema.present s := by
  obtain ⟨id, _, hget⟩ := getCurrentUser_eq_ok.mp h
  exact ⟨user, ((Table.get_eq_some _).mp hget).1, rfl⟩

theorem unmatched_of_savedItem {userId : ℤ} {target : WishTarget}
    (h : savedItem s userId target = none) :
    ∀ w ∈ s.wishlistItems.rows, target.matches userId w = false := by
  intro w hw
  have hnil := List.head?_eq_none_iff.mp h
  rw [Table.select, List.filter_eq_nil_iff] at hnil
  exact Bool.eq_false_iff.mpr (hnil w hw)

/-- The two unique constraints hold because the item was looked for first. -/
theorem saveItem_keeps {target : WishTarget} : StaysSound s (saveItem env s token target) := by
  unfold saveItem
  refine .bind fun user huser => ?_
  split
  · exact .pure id
  next hnone =>
    refine .bind fun _ hfk => .pure fun h => ?_
    have hknown := ensure_eq_ok.mp hfk
    have hfree := unmatched_of_savedItem hnone
    obtain ⟨hhotels, hrooms⟩ := h.obeyed .wishlistItems
    refine h.putLeaf (n := .wishlistItems) rfl ?_ ⟨?_, ?_⟩
    · refine links_insert_subset _ fun p hp => ?_
      simp only [Linked.links, List.mem_cons, List.mem_append, mem_refTo] at hp
      cases target with
      | hotel id =>
        rcases hp with rfl | ⟨_, hid, rfl⟩ | ⟨_, hroom, _⟩
        · exact caller_present huser
        · exact Option.some.inj hid ▸ present_hotel.mpr hknown
        · cases hroom
      | room id =>
        rcases hp with rfl | ⟨_, hhotel, _⟩ | ⟨_, hid, rfl⟩
        · exact caller_present huser
        · cases hhotel
        · exact Option.some.inj hid ▸ present_room.mpr hknown
    · refine uniqueBy_insert hhotels (fun _ => rfl) fun hsome w hw heq => ?_
      cases target with
      | hotel id =>
        have hunmatched := hfree w hw
        simp only [WishlistItem.savedHotel, WishTarget.hotelId, Option.map_some,
          Option.map_eq_some_iff, Prod.mk.injEq] at heq
        obtain ⟨_, hid, hu, rfl⟩ := heq
        simp [WishTarget.matches, hid, hu] at hunmatched
      | room id => cases hsome
    · refine uniqueBy_insert hrooms (fun _ => rfl) fun hsome w hw heq => ?_
      cases target with
      | hotel id => cases hsome
      | room id =>
        have hunmatched := hfree w hw
        simp only [WishlistItem.savedRoom, WishTarget.roomId, Option.map_some,
          Option.map_eq_some_iff, Prod.mk.injEq] at heq
        obtain ⟨_, hid, hu, rfl⟩ := heq
        simp [WishTarget.matches, hid, hu] at hunmatched

theorem unsaveItem_keeps {target : WishTarget} {detail : String} :
    StaysSound s (unsaveItem s token target detail) := by
  unfold unsaveItem
  refine .bind fun user _ => .bind fun item _ => .pure fun h => ?_
  obtain ⟨hhotels, hrooms⟩ := h.obeyed .wishlistItems
  have hold : ∀ w ∈ (s.wishlistItems.delete item.id).rows, w ∈ s.wishlistItems.rows :=
    fun w hw => ((Table.mem_deleteWhere _).mp hw).1
  refine h.putLeaf (n := .wishlistItems) rfl ?_ ⟨?_, ?_⟩
  · exact fun p hp => Or.inl (links_deleteWhere_subset _ hp)
  · exact hhotels.subset hold
  · exact hrooms.subset hold

end

end HotelMs
