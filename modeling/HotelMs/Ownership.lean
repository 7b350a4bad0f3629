import HotelMs.Money

/-!
# Whose rows a guest request touches

A caller of the guest endpoints may change its own rows only. Every endpoint is
checked on the tables of its footprint; the payment endpoint alone reaches rows
of others.
-/

namespace HotelMs

open Tables

def KeptIn (u : ℤ) (s s' : Store) : TableName → Prop
  | .bookings => s'.bookings.select (fun b => b.userId ≠ u) =
    s.bookings.select (fun b => b.userId ≠ u)
  | .payments => s'.payments.select (fun p => p.userId ≠ u) =
    s.payments.select (fun p => p.userId ≠ u)
  | .reviews => s'.reviews.select (fun r => r.userId ≠ u) =
    s.reviews.select (fun r => r.userId ≠ u)
  | .notifications => s'.notifications.select (fun n => n.userId ≠ u) =
    s.notifications.select (fun n => n.userId ≠ u)
  | .wishlistItems => s'.wishlistItems.select (fun w => w.userId ≠ u) =
    s.wishlistItems.select (fun w => w.userId ≠ u)
  | .users => s'.users.select (fun v => v.id ≠ u) = s.users.select (fun v => v.id ≠ u)
  | _ => True

/-- No row of another user is changed, deleted or added, and no other `users` row. -/
def OthersKept (u : ℤ) (s s' : Store) : Prop := ∀ n, KeptIn u s s' n

theorem keptIn_of_table {u : ℤ} {s s' : Store} {n : TableName} (h : s'.table n = s.table n) :
    KeptIn u s s' n := by
  cases n with
  | bookings => exact congrArg (fun t : Table Booking => t.select _) h
  | payments => exact congrArg (fun t : Table Payment => t.select _) h
  | reviews => exact congrArg (fun t : Table Review => t.select _) h
  | notifications => exact congrArg (fun t : Table Notification => t.select _) h
  | wishlistItems => exact congrArg (fun t : Table WishlistItem => t.select _) h
  | users => exact congrArg (fun t : Table User => t.select _) h
  | _ => trivial

theorem othersKept_of_agree {u : ℤ} {ts : List TableName} {s s' : Store} (h : Agree ts s s')
    (hts : ∀ n ∈ ts, KeptIn u s s' n) : OthersKept u s s' := by
  intro n
  by_cases hn : n ∈ ts
  · exact hts n hn
  · exact keptIn_of_table (h n hn)

theorem othersKept_refl (u : ℤ) (s : Store) : OthersKept u s s := fun _ => keptIn_of_table rfl

/-! ### One handler at a time -/

theorem kept_of_writes {α : Type} {u : ℤ} {n : TableName} {s : Store}
    {x : Except Error (α × Store)} (hw : Writes [n] s x)
    (h : ∀ r, x = .ok r → KeptIn u s r.2 n) : OthersKept u s (committed s x) := by
  cases hx : x with
  | error e => exact othersKept_refl u s
  | ok r =>
    refine othersKept_of_agree (hw r hx) fun m hm => ?_
    rw [List.mem_singleton.mp hm]
    exact h r hx

section

variable {ext : Ext} {env : Env} {s : Store} {u : ℤ} {user : User}

theorem createBookingEndpoint_kept (data : BookingCreate) :
    OthersKept u s (committed s (createBookingEndpoint env s (some u) data)) := by
  refine kept_of_writes createBookingEndpoint_writes fun r hr => ?_
  obtain ⟨user, room, price, d, hu, _, _, rfl, _, _, rfl⟩ := createBookingEndpoint_eq_ok.mp hr
  have hid := id_of_getCurrentUser hu
  exact Table.select_insert _ (by simp [BookingData.row, hid])

theorem setStatus_kept {bookingId : ℤ} {status : BookingStatus} {b : Booking}
    (hb : s.bookings.get bookingId = some b) (hown : b.userId = u) :
    KeptIn u s (setStatus s bookingId status) .bookings := by
  refine Table.select_update _ fun r hr hk => ?_
  obtain ⟨hmem, hkey⟩ := (Table.get_eq_some _).mp hb
  obtain rfl := s.bookings.eq_of_key hr hmem (hk.trans hkey.symm)
  simp [hown]

theorem cancelBookingEndpoint_kept (bookingId : ℤ) :
    OthersKept u s (committed s (cancelBookingEndpoint s (some u) bookingId)) := by
  refine kept_of_writes cancelBookingEndpoint_writes fun r hr => ?_
  obtain ⟨user, b, hu, hb, hown, rfl⟩ := cancelBookingEndpoint_eq_ok.mp hr
  exact setStatus_kept hb (hown.trans (id_of_getCurrentUser hu))

theorem submitReview_kept (data : ReviewCreate) :
    OthersKept u s (committed s (submitReview env s (some u) data)) := by
  refine kept_of_writes submitReview_writes fun r hr => ?_
  simp only [submitReview, createReview, bind_eq_ok, ensure_eq_ok, pure_eq_ok] at hr
  obtain ⟨user, hu, _, _, _, _, _, _, _, _, rfl⟩ := hr
  have hid := id_of_getCurrentUser hu
  exact Table.select_insert _ (by simp [hid])

theorem updateReview_kept {reviewId : ℤ} {data : ReviewUpdate} {r : Option Review × Store}
    (h : updateReview s reviewId u data = .ok r) : KeptIn u s r.2 .reviews := by
  unfold updateReview at h
  split at h
  next =>
    cases h
    exact keptIn_of_table rfl
  next review hown =>
    simp only [bind_eq_ok, pure_eq_ok] at h
    obtain ⟨_, _, rfl⟩ := h
    obtain ⟨⟨hmem, hkey⟩, huser⟩ := getOwnReview_eq_some.mp hown
    refine Table.select_update _ fun r hr hk => ?_
    obtain rfl := s.reviews.eq_of_key hr hmem (hk.trans hkey.symm)
    simp [huser, ReviewUpdate.apply]

theorem editReview_kept (reviewId : ℤ) (data : ReviewUpdate) :
    OthersKept u s (committed s (editReview s (some u) reviewId data)) := by
  refine kept_of_writes editReview_writes fun r hr => ?_
  simp only [editReview, bind_eq_ok, found_eq_ok, pure_eq_ok] at hr
  obtain ⟨user, hu, updated, hup, _, _, rfl⟩ := hr
  rw [id_of_getCurrentUser hu] at hup
  exact updateReview_kept hup

theorem removeReview_kept (reviewId : ℤ) :
    OthersKept u s (committed s (removeReview s (some u) reviewId)) := by
  refine kept_of_writes removeReview_writes fun r hr => ?_
  simp only [removeReview, bind_eq_ok, ensure_eq_ok, pure_eq_ok] at hr
  obtain ⟨user, hu, _, _, rfl⟩ := hr
  rw [id_of_getCurrentUser hu]
  unfold deleteReview
  split
  next => exact keptIn_of_table rfl
  next review hown =>
    obtain ⟨⟨hmem, hkey⟩, huser⟩ := getOwnReview_eq_some.mp hown
    refine Table.select_deleteWhere _ fun r hr hk => ?_
    obtain rfl := s.reviews.eq_of_key hr hmem (of_decide_eq_true hk)
    simp [huser]

theorem readNotification_kept (notificationId : ℤ) :
    OthersKept u s (committed s (readNotification s (some u) notificationId)) := by
  refine kept_of_writes readNotification_writes fun r hr => ?_
  simp only [readNotification, markRead, bind_eq_ok, found_eq_ok] at hr
  obtain ⟨user, hu, hr⟩ := hr
  obtain ⟨n, hn, hr⟩ := Option.bind_eq_some_iff.mp hr
  obtain rfl := Option.some.inj hr
  obtain ⟨hget, hown⟩ := Option.filter_eq_some_iff.mp hn
  obtain ⟨hmem, hkey⟩ := (Table.get_eq_some _).mp hget
  have huser : n.userId = u := (of_decide_eq_true hown).trans (id_of_getCurrentUser hu)
  refine Table.select_update _ fun r hr hk => ?_
  obtain rfl := s.notifications.eq_of_key hr hmem (hk.trans hkey.symm)
  simp [huser]

theorem readAllNotifications_kept :
    OthersKept u s (committed s (readAllNotifications s (some u))) := by
  refine kept_of_writes readAllNotifications_writes fun r hr => ?_
  simp only [readAllNotifications, bind_eq_ok, pure_eq_ok] at hr
  obtain ⟨user, hu, rfl⟩ := hr
  rw [id_of_getCurrentUser hu]
  refine Table.select_updateWhere _ fun n _ hn => ?_
  have hown : n.userId = u := by
    simp only [Bool.and_eq_true, decide_eq_true_eq] at hn
    exact hn.1
  simp [hown]

theorem saveItem_kept (target : WishTarget) :
    OthersKept u s (committed s (saveItem env s (some u) target)) := by
  refine kept_of_writes saveItem_writes fun r hr => ?_
  unfold saveItem at hr
  obtain ⟨user, hu, hr⟩ := bind_eq_ok.mp hr
  have hid := id_of_getCurrentUser hu
  split at hr
  next =>
    obtain rfl := pure_eq_ok.mp hr
    exact keptIn_of_table rfl
  next =>
    simp only [bind_eq_ok, pure_eq_ok] at hr
    obtain ⟨_, _, rfl⟩ := hr
    exact Table.select_insert _ (by simp [hid])

theorem unsaveItem_kept (target : WishTarget) (detail : String) :
    OthersKept u s (committed s (unsaveItem s (some u) target detail)) := by
  refine kept_of_writes unsaveItem_writes fun r hr => ?_
  simp only [unsaveItem, bind_eq_ok, found_eq_ok, pure_eq_ok] at hr
  obtain ⟨user, hu, item, hitem, rfl⟩ := hr
  rw [id_of_getCurrentUser hu] at hitem
  obtain ⟨hmem, huser⟩ := savedItem_userId hitem
  refine Table.select_deleteWhere _ fun w hw hk => ?_
  obtain rfl := s.wishlistItems.eq_of_key hw hmem (of_decide_eq_true hk)
  simp [huser]

theorem updateUser_kept {f : User → User} {r : Option User × Store}
    (h : updateUser s u f = .ok r) : KeptIn u s r.2 .users := by
  unfold updateUser at h
  split at h
  next =>
    cases h
    exact keptIn_of_table rfl
  next =>
    simp only [bind_eq_ok, pure_eq_ok] at h
    obtain ⟨_, _, rfl⟩ := h
    refine Table.select_update _ fun v _ hk => ?_
    simp only [key_user] at hk
    simp [hk]

theorem updateProfile_kept (data : ProfileUpdate) :
    OthersKept u s (committed s (updateProfile ext s (some u) data)) := by
  refine kept_of_writes updateProfile_writes fun r hr => ?_
  simp only [updateProfile, bind_eq_ok, found_eq_ok, pure_eq_ok] at hr
  obtain ⟨user, hu, updated, hup, _, _, rfl⟩ := hr
  rw [id_of_getCurrentUser hu] at hup
  exact updateUser_kept hup

theorem changePassword_kept (data : PasswordChange) :
    OthersKept u s (committed s (changePassword ext env s (some u) data)) := by
  refine kept_of_writes changePassword_writes fun r hr => ?_
  simp only [changePassword, bind_eq_ok, ensure_eq_ok] at hr
  obtain ⟨user, hu, _, _, hup⟩ := hr
  rw [id_of_getCurrentUser hu] at hup
  exact updateUser_kept hup

end

/-! ### Payments -/

/-- The call pays a pending booking of somebody else. -/
def ConfirmsForOther (env : Env) (s : Store) (c : PaymentCall) : Prop :=
  (∃ amount, Carried env s c amount) ∧
    ∃ b, s.bookings.get c.bookingId = some b ∧ b.userId ≠ c.userId ∧ b.status = .pending

theorem processPayment_payments_kept (env : Env) (s : Store) (c : PaymentCall) :
    KeptIn c.userId s (processPayment env s c).2 .payments := by
  have ho := processPayment_outcome env s c
  generalize (processPayment env s c).2 = s' at ho ⊢
  cases ho with
  | refused h => exact keptIn_of_table rfl
  | unpaid h hs hg => exact Table.select_insert _ (by simp [paymentRow])
  | paid h hg hf => exact Table.select_insert _ (by simp [paymentRow])

theorem setStatus_confirmed_kept_iff {s : Store} {u bookingId : ℤ} {b : Booking}
    (hb : s.bookings.get bookingId = some b)
    (hopen : b.status ≠ .cancelled ∧ b.status ≠ .completed) :
    KeptIn u s (setStatus s bookingId .confirmed) .bookings ↔
      ¬(b.userId ≠ u ∧ b.status = .pending) := by
  obtain ⟨hmem, hkey⟩ := (Table.get_eq_some _).mp hb
  constructor
  · intro h hother
    -- the row of the other user is gone
    have hin : b ∈ s.bookings.select fun b => b.userId ≠ u := by simp [hmem, hother.1]
    rw [← (show _ = _ from h)] at hin
    obtain ⟨hin, _⟩ := (Table.mem_select _).mp hin
    rcases (Table.mem_update_of_get _ hb).mp hin with heq | hne
    · have hstatus := congrArg Booking.status heq
      rw [hother.2] at hstatus
      cases hstatus
    · exact hne.2 hkey
  · intro h
    by_cases hown : b.userId = u
    · exact setStatus_kept hb hown
    · have hconfirmed : b.status = .confirmed := by
        cases hs : b.status with
        | pending => exact absurd ⟨hown, hs⟩ h
        | confirmed => rfl
        | cancelled => exact absurd hs hopen.1
        | completed => exact absurd hs hopen.2
      have hsame : (setStatus s bookingId .confirmed).bookings = s.bookings := by
        refine Table.update_of_fixed _ hb ?_
        rw [← hconfirmed]
        rfl
      exact keptIn_of_table hsame

theorem processPayment_kept_iff (env : Env) (s : Store) (c : PaymentCall) :
    OthersKept c.userId s (processPayment env s c).2 ↔ ¬ConfirmsForOther env s c := by
  have hbookings : OthersKept c.userId s (processPayment env s c).2 ↔
      KeptIn c.userId s (processPayment env s c).2 .bookings := by
    refine ⟨fun h => h .bookings, fun h => othersKept_of_agree processPayment_agree ?_⟩
    intro n hn
    rcases List.mem_pair.mp hn with rfl | rfl
    · exact h
    · exact processPayment_payments_kept env s c
  rw [hbookings]
  rcases processPayment_paid env s c with hp | hp
  · obtain ⟨amount, hcarried, hrows, _⟩ := hp
    obtain ⟨_, _, ha, _⟩ := id hcarried
    obtain ⟨b, hcheck⟩ := ha.check
    obtain ⟨_, hb, hopen⟩ := paymentCheck_eq_ok.mp hcheck
    have hsame : KeptIn c.userId s (processPayment env s c).2 .bookings ↔
        KeptIn c.userId s (setStatus s c.bookingId .confirmed) .bookings := by
      unfold KeptIn
      rw [hrows]
    rw [hsame, setStatus_confirmed_kept_iff hb hopen]
    refine not_congr ⟨fun h => ⟨⟨amount, hcarried⟩, b, hb, h⟩, fun h => ?_⟩
    obtain ⟨_, b', hb', h⟩ := h
    obtain rfl := Option.some.inj (hb.symm.trans hb')
    exact h
  · obtain ⟨hno, hrows, _⟩ := hp
    refine iff_of_true (keptIn_of_table hrows) fun h => ?_
    obtain ⟨amount, hcarried⟩ := h.1
    exact hno amount hcarried

/-! ### All guest requests -/

def PaysForOther (env : Env) (s : Store) (u : ℤ) : GuestRequest → Prop
  | .makePayment data =>
    ConfirmsForOther env s ⟨data.bookingId, u, data.amount, data.method, data.currency⟩
  | _ => False

theorem makePayment_kept_iff (env : Env) (s : Store) (u : ℤ) (data : PaymentRequest) :
    OthersKept u s (makePayment env s (some u) data).2 ↔
      ¬PaysForOther env s u (.makePayment data) := by
  cases hu : getCurrentUser s (some u) with
  | ok user =>
    have hid := id_of_getCurrentUser hu
    rw [makePayment_store hu]
    have hiff := processPayment_kept_iff env s (data.call user)
    unfold PaymentRequest.call at hiff ⊢
    rw [hid] at hiff ⊢
    exact hiff
  | error e =>
    have hstay : (makePayment env s (some u) data).2 = s := makePayment_refused hu
    rw [hstay]
    refine iff_of_true (othersKept_refl u s) fun h => ?_
    obtain ⟨_, _, _, ha, _⟩ := h.1
    obtain ⟨user, huser⟩ := Option.isSome_iff_exists.mp ha.user_known
    rw [getCurrentUser_eq_ok.mpr ⟨u, rfl, huser⟩] at hu
    cases hu

/-- A guest request leaves the rows of others alone exactly when it is not a
payment that confirms somebody else's booking. -/
theorem others_kept_iff (ext : Ext) (env : Env) (s : Store) (u : ℤ) (r : GuestRequest) :
    OthersKept u s (serveGuest ext env s (some u) r) ↔ ¬PaysForOther env s u r := by
  cases r with
  | makePayment data => exact makePayment_kept_iff env s u data
  | createBooking data => exact iff_of_true (createBookingEndpoint_kept data) id
  | cancelBooking bookingId => exact iff_of_true (cancelBookingEndpoint_kept bookingId) id
  | submitReview data => exact iff_of_true (submitReview_kept data) id
  | editReview reviewId data => exact iff_of_true (editReview_kept reviewId data) id
  | removeReview reviewId => exact iff_of_true (removeReview_kept reviewId) id
  | readNotification notificationId =>
    exact iff_of_true (readNotification_kept notificationId) id
  | readAllNotifications => exact iff_of_true readAllNotifications_kept id
  | addToWishlist hotelId => exact iff_of_true (saveItem_kept _) id
  | removeFromWishlist hotelId => exact iff_of_true (unsaveItem_kept _ _) id
  | saveRoom roomId => exact iff_of_true (saveItem_kept _) id
  | unsaveRoom roomId => exact iff_of_true (unsaveItem_kept _ _) id
  | updateProfile data => exact iff_of_true (updateProfile_kept data) id
  | changePassword data => exact iff_of_true (changePassword_kept data) id

theorem stranger_confirms_booking :
    ¬OthersKept 2 bookedStore (serveGuest sampleExt (sampleEnv "txn_1") bookedStore (some 2)
      (.makePayment ⟨1, 5, "card", "USD"⟩)) := by
  intro h
  have hrows : ¬KeptIn 2 bookedStore (serveGuest sampleExt (sampleEnv "txn_1") bookedStore (some 2)
      (.makePayment ⟨1, 5, "card", "USD"⟩)) .bookings := by
    unfold KeptIn
    decide +kernel
  exact hrows (h .bookings)

end HotelMs
