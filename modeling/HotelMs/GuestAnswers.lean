import HotelMs.Ownership
import HotelMs.UserWrites
import HotelMs.Wishlist
import HotelMs.Lib.Runs

/-!
# What a guest is answered

The endpoints that list a guest's own rows. What they answer a guest is kept by the
requests of everybody else, with one exception. A row stands for its response.
-/

namespace HotelMs

open Runs Tables

/-! ### The endpoints that read -/

def getUserBookings (s : Store) (userId : ℤ) : List Booking :=
  s.bookings.select fun b => b.userId = userId

def getPaymentsForUser (s : Store) (userId : ℤ) : List Payment :=
  (s.payments.select fun p => p.userId = userId).insertionSort fun p q => q.createdAt ≤ p.createdAt

def getReviewsByUser (s : Store) (userId : ℤ) : List Review :=
  (s.reviews.select fun r => r.userId = userId).insertionSort fun r q => q.createdAt ≤ r.createdAt

def getNotificationsForUser (s : Store) (userId : ℤ) : List Notification :=
  (s.notifications.select fun n => n.userId = userId).insertionSort
    fun n m => m.createdAt ≤ n.createdAt

section

variable (s : Store) (token : Bearer)

def listUserBookingsEndpoint : Except Error (List Booking) := do
  let user ← getCurrentUser s token
  return getUserBookings s user.id

def getBookingEndpoint (bookingId : ℤ) : Except Error Booking := do
  let user ← getCurrentUser s token
  getOwnBooking s user.id bookingId

def listPayments : Except Error (List Payment) := do
  let user ← getCurrentUser s token
  return getPaymentsForUser s user.id

def listMyReviews : Except Error (List Review) := do
  let user ← getCurrentUser s token
  return getReviewsByUser s user.id

def listNotifications : Except Error (List Notification) := do
  let user ← getCurrentUser s token
  return getNotificationsForUser s user.id

def listWishlist : Except Error (List WishlistItem) := do
  let user ← getCurrentUser s token
  return s.wishlistItems.select fun w => w.userId = user.id && w.hotelId.isSome

end

inductive GuestRead
  | bookings
  | booking (bookingId : ℤ)
  | payments
  | reviews
  | notifications
  | wishlist
  | savedRooms

inductive GuestAnswer
  | bookings (rows : List Booking)
  | booking (row : Booking)
  | payments (rows : List Payment)
  | reviews (rows : List Review)
  | notifications (rows : List Notification)
  | wishlist (rows : List WishlistItem)

def GuestRead.answer (s : Store) (token : Bearer) : GuestRead → Except Error GuestAnswer
  | .bookings => (listUserBookingsEndpoint s token).map .bookings
  | .booking bookingId => (getBookingEndpoint s token bookingId).map .booking
  | .payments => (listPayments s token).map .payments
  | .reviews => (listMyReviews s token).map .reviews
  | .notifications => (listNotifications s token).map .notifications
  | .wishlist => (listWishlist s token).map .wishlist
  | .savedRooms => (listSavedRooms s token).map .wishlist

/-! ### They read the guest's own rows -/

def OwnIn (v : ℤ) (s s' : Store) : TableName → Prop
  | .bookings => s'.bookings.select (fun b => b.userId = v) =
    s.bookings.select (fun b => b.userId = v)
  | .payments => s'.payments.select (fun p => p.userId = v) =
    s.payments.select (fun p => p.userId = v)
  | .reviews => s'.reviews.select (fun r => r.userId = v) =
    s.reviews.select (fun r => r.userId = v)
  | .notifications => s'.notifications.select (fun n => n.userId = v) =
    s.notifications.select (fun n => n.userId = v)
  | .wishlistItems => s'.wishlistItems.select (fun w => w.userId = v) =
    s.wishlistItems.select (fun w => w.userId = v)
  | _ => True

/-- The guest's bookings, payments, reviews, notifications and saved items are the same. -/
def OwnKept (v : ℤ) (s s' : Store) : Prop := ∀ n, OwnIn v s s' n

section

variable {s s' : Store} {u v : ℤ}

theorem getOwnBooking_error {bookingId : ℤ} {e : Error}
    (h : getOwnBooking s v bookingId = .error e) : e = .http 404 "Booking not found" := by
  unfold getOwnBooking at h
  cases hfound : getBookingById s bookingId none with
  | none =>
    rw [hfound] at h
    exact (Except.error.inj h).symm
  | some b =>
    rw [hfound] at h
    by_cases hown : b.userId = v
    · simp [found, ensure, hown, bind, Except.bind, pure, Except.pure] at h
    · simp [found, ensure, hown, bind, Except.bind] at h
      exact h.symm

theorem getOwnBooking_congr (h : OwnIn v s s' .bookings) (bookingId : ℤ) :
    getOwnBooking s' v bookingId = getOwnBooking s v bookingId := by
  have hiff : ∀ b, getOwnBooking s' v bookingId = .ok b ↔ getOwnBooking s v bookingId = .ok b := by
    intro b
    have hmem : b ∈ s'.bookings.select (fun b => b.userId = v) ↔
        b ∈ s.bookings.select fun b => b.userId = v := by rw [show _ = _ from h]
    simp only [Table.mem_select, decide_eq_true_eq] at hmem
    rw [getOwnBooking_eq_ok, getOwnBooking_eq_ok, Table.get_eq_some, Table.get_eq_some,
      and_right_comm, hmem, and_right_comm]
  cases hown : getOwnBooking s v bookingId with
  | ok b => exact (hiff b).mpr hown
  | error e =>
    cases hown' : getOwnBooking s' v bookingId with
    | ok b =>
      have hfound := (hiff b).mp hown'
      rw [hown] at hfound
      cases hfound
    | error e' => rw [getOwnBooking_error hown, getOwnBooking_error hown']

theorem select_narrow {α : Type} [Keyed α] {t t' : Table α} {p : α → Bool}
    (h : t'.select p = t.select p) (q : α → Bool) :
    t'.select (fun r => p r && q r) = t.select fun r => p r && q r :=
  t'.select_eq_of_select h fun _ hr => (Bool.and_eq_true_iff.mp hr).1

/-- What is answered depends on the guest's own rows only. -/
theorem answer_eq (hown : OwnKept v s s') (hv : (s.users.get v).isSome = true)
    (hv' : (s'.users.get v).isSome = true) (r : GuestRead) :
    r.answer s' (some v) = r.answer s (some v) := by
  obtain ⟨user, huser⟩ := Option.isSome_iff_exists.mp hv
  obtain ⟨user', huser'⟩ := Option.isSome_iff_exists.mp hv'
  have hcaller : getCurrentUser s (some v) = .ok user := getCurrentUser_eq_ok.mpr ⟨v, rfl, huser⟩
  have hcaller' : getCurrentUser s' (some v) = .ok user' :=
    getCurrentUser_eq_ok.mpr ⟨v, rfl, huser'⟩
  have hid := id_of_getCurrentUser hcaller
  have hid' := id_of_getCurrentUser hcaller'
  cases r with
  | bookings =>
    have hrows : getUserBookings s' v = getUserBookings s v := hown .bookings
    simp only [GuestRead.answer, listUserBookingsEndpoint, hcaller, hcaller', bind, Except.bind,
      hid, hid', hrows]
  | booking bookingId =>
    simp only [GuestRead.answer, getBookingEndpoint, hcaller, hcaller', bind, Except.bind, hid,
      hid', getOwnBooking_congr (hown .bookings) bookingId]
  | payments =>
    have hrows : getPaymentsForUser s' v = getPaymentsForUser s v :=
      congrArg (List.insertionSort fun p q : Payment => q.createdAt ≤ p.createdAt) (hown .payments)
    simp only [GuestRead.answer, listPayments, hcaller, hcaller', bind, Except.bind, hid, hid',
      hrows]
  | reviews =>
    have hrows : getReviewsByUser s' v = getReviewsByUser s v :=
      congrArg (List.insertionSort fun r q : Review => q.createdAt ≤ r.createdAt) (hown .reviews)
    simp only [GuestRead.answer, listMyReviews, hcaller, hcaller', bind, Except.bind, hid, hid',
      hrows]
  | notifications =>
    have hrows : getNotificationsForUser s' v = getNotificationsForUser s v :=
      congrArg (List.insertionSort fun n m : Notification => m.createdAt ≤ n.createdAt)
        (hown .notifications)
    simp only [GuestRead.answer, listNotifications, hcaller, hcaller', bind, Except.bind, hid,
      hid', hrows]
  | wishlist =>
    simp only [GuestRead.answer, listWishlist, hcaller, hcaller', bind, Except.bind, hid, hid',
      select_narrow (hown .wishlistItems)]
  | savedRooms =>
    simp only [GuestRead.answer, listSavedRooms, hcaller, hcaller', bind, Except.bind, hid, hid',
      select_narrow (hown .wishlistItems)]

/-! ### Requests of others -/

theorem ownIn_of_table {n : TableName} (h : s'.table n = s.table n) : OwnIn v s s' n := by
  cases n with
  | bookings => exact congrArg (fun t : Table Booking => t.select _) h
  | payments => exact congrArg (fun t : Table Payment => t.select _) h
  | reviews => exact congrArg (fun t : Table Review => t.select _) h
  | notifications => exact congrArg (fun t : Table Notification => t.select _) h
  | wishlistItems => exact congrArg (fun t : Table WishlistItem => t.select _) h
  | _ => trivial

theorem ownKept_refl (v : ℤ) (s : Store) : OwnKept v s s := fun _ => ownIn_of_table rfl

theorem ownKept_of_agree {ts : List TableName} (h : Agree ts s s')
    (hts : ∀ n ∈ ts, OwnIn v s s' n) : OwnKept v s s' := by
  intro n
  by_cases hn : n ∈ ts
  · exact hts n hn
  · exact ownIn_of_table (h n hn)

/-- Rows of others, seen from `u`, are those of `v`. -/
theorem ownKept_of_others (hne : u ≠ v) (h : OthersKept u s s') : OwnKept v s s' := by
  intro n
  have hkept := h n
  cases n with
  | bookings =>
    exact s'.bookings.select_eq_of_select hkept fun b hb =>
      decide_eq_true (of_decide_eq_true hb ▸ hne.symm)
  | payments =>
    exact s'.payments.select_eq_of_select hkept fun b hb =>
      decide_eq_true (of_decide_eq_true hb ▸ hne.symm)
  | reviews =>
    exact s'.reviews.select_eq_of_select hkept fun b hb =>
      decide_eq_true (of_decide_eq_true hb ▸ hne.symm)
  | notifications =>
    exact s'.notifications.select_eq_of_select hkept fun b hb =>
      decide_eq_true (of_decide_eq_true hb ▸ hne.symm)
  | wishlistItems =>
    exact s'.wishlistItems.select_eq_of_select hkept fun b hb =>
      decide_eq_true (of_decide_eq_true hb ▸ hne.symm)
  | _ => trivial

/-- The call pays a pending booking of `v`. -/
def ConfirmsOf (v : ℤ) (env : Env) (s : Store) (c : PaymentCall) : Prop :=
  (∃ amount, Carried env s c amount) ∧
    ∃ b, s.bookings.get c.bookingId = some b ∧ b.userId = v ∧ b.status = .pending

theorem setStatus_confirmed_own_iff {bookingId : ℤ} {b : Booking}
    (hb : s.bookings.get bookingId = some b)
    (hopen : b.status ≠ .cancelled ∧ b.status ≠ .completed) :
    OwnIn v s (setStatus s bookingId .confirmed) .bookings ↔
      ¬(b.userId = v ∧ b.status = .pending) := by
  obtain ⟨hmem, hkey⟩ := (Table.get_eq_some _).mp hb
  constructor
  · intro h hown
    have hin : b ∈ s.bookings.select fun b => b.userId = v := by simp [hmem, hown.1]
    rw [← (show _ = _ from h)] at hin
    obtain ⟨hin, _⟩ := (Table.mem_select _).mp hin
    rcases (Table.mem_update_of_get _ hb).mp hin with heq | hne
    · have hstatus := congrArg Booking.status heq
      rw [hown.2] at hstatus
      cases hstatus
    · exact hne.2 hkey
  · intro h
    by_cases hown : b.userId = v
    · have hconfirmed : b.status = .confirmed := by
        cases hs : b.status with
        | pending => exact absurd ⟨hown, hs⟩ h
        | confirmed => rfl
        | cancelled => exact absurd hs hopen.1
        | completed => exact absurd hs hopen.2
      have hsame : (setStatus s bookingId .confirmed).bookings = s.bookings := by
        refine Table.update_of_fixed _ hb ?_
        rw [← hconfirmed]
        rfl
      exact ownIn_of_table hsame
    · refine Table.select_update _ fun r hr hk => ?_
      obtain rfl := s.bookings.eq_of_key hr hmem (hk.trans hkey.symm)
      simp [hown]

/-- A payer changes no payment of `v`. -/
theorem processPayment_ownKept (env : Env) (c : PaymentCall) (hne : c.userId ≠ v) :
    OwnKept v s (processPayment env s c).2 ↔ OwnIn v s (processPayment env s c).2 .bookings := by
  have hpayments : OwnIn v s (processPayment env s c).2 .payments :=
    (processPayment env s c).2.payments.select_eq_of_select
      (processPayment_payments_kept env s c) fun b hb =>
        decide_eq_true (of_decide_eq_true hb ▸ hne.symm)
  refine ⟨fun h => h .bookings, fun h => ownKept_of_agree processPayment_agree ?_⟩
  intro n hn
  rcases List.mem_pair.mp hn with rfl | rfl
  · exact h
  · exact hpayments

theorem processPayment_own_iff (env : Env) (c : PaymentCall) (hne : c.userId ≠ v) :
    OwnKept v s (processPayment env s c).2 ↔ ¬ConfirmsOf v env s c := by
  rw [processPayment_ownKept env c hne]
  rcases processPayment_paid env s c with hp | hp
  · obtain ⟨amount, hcarried, hrows, _⟩ := hp
    obtain ⟨_, _, ha, _⟩ := id hcarried
    obtain ⟨b, hcheck⟩ := ha.check
    obtain ⟨_, hb, hopen⟩ := paymentCheck_eq_ok.mp hcheck
    have hsame : OwnIn v s (processPayment env s c).2 .bookings ↔
        OwnIn v s (setStatus s c.bookingId .confirmed) .bookings := by
      unfold OwnIn
      rw [hrows]
    rw [hsame, setStatus_confirmed_own_iff hb hopen]
    refine not_congr ⟨fun h => ⟨⟨amount, hcarried⟩, b, hb, h⟩, fun h => ?_⟩
    obtain ⟨_, b', hb', h⟩ := h
    obtain rfl := Option.some.inj (hb.symm.trans hb')
    exact h
  · obtain ⟨hno, hrows, _⟩ := hp
    refine iff_of_true (ownIn_of_table hrows) fun h => ?_
    obtain ⟨amount, hcarried⟩ := h.1
    exact hno amount hcarried

/-- Neither a request of the guest nor one of the front desk, and not the removal of
the guest's account. -/
def FromOthers (v : ℤ) : Action → Prop
  | .call ⟨_, token, .guest _⟩ | .call ⟨_, token, .photo _⟩ => token ≠ some v
  | .call ⟨_, _, .desk _⟩ => False
  | .call ⟨_, _, .user (.remove userId)⟩ => userId ≠ v
  | .call _ => True
  | .payment _ c => c.userId ≠ v

/-- A payment of a pending booking of `v`. -/
def Confirms (v : ℤ) (s : Store) : Action → Prop
  | .call ⟨env, some u, .guest (.makePayment data)⟩ =>
    ConfirmsOf v env s ⟨data.bookingId, u, data.amount, data.method, data.currency⟩
  | .payment env c => ConfirmsOf v env s c
  | _ => False

section

variable {ext : Ext} {env : Env} {token : Bearer}

theorem makePayment_pays {user : User} (hu : getCurrentUser s (some u) = .ok user)
    (data : PaymentRequest) : (makePayment env s (some u) data).2 = (processPayment env s
      ⟨data.bookingId, u, data.amount, data.method, data.currency⟩).2 := by
  rw [makePayment_store hu]
  unfold PaymentRequest.call
  rw [id_of_getCurrentUser hu]

theorem caller_of_confirmsOf {c : PaymentCall} (h : ConfirmsOf v env s c) :
    ∃ user, getCurrentUser s (some c.userId) = .ok user := by
  obtain ⟨_, _, _, ha, _⟩ := h.1
  obtain ⟨user, huser⟩ := Option.isSome_iff_exists.mp ha.user_known
  exact ⟨user, getCurrentUser_eq_ok.mpr ⟨c.userId, rfl, huser⟩⟩

theorem makePayment_own_iff (hne : u ≠ v) (data : PaymentRequest) :
    OwnKept v s (makePayment env s (some u) data).2 ↔
      ¬ConfirmsOf v env s ⟨data.bookingId, u, data.amount, data.method, data.currency⟩ := by
  cases hu : getCurrentUser s (some u) with
  | ok user =>
    rw [makePayment_pays hu]
    exact processPayment_own_iff env _ hne
  | error e =>
    have hstay : (makePayment env s (some u) data).2 = s := makePayment_refused hu
    rw [hstay]
    refine iff_of_true (ownKept_refl v s) fun h => ?_
    obtain ⟨user, huser⟩ := caller_of_confirmsOf h
    rw [hu] at huser
    cases huser

theorem serveGuest_none (r : GuestRequest) : serveGuest ext env s none r = s := by
  cases r <;> rfl

theorem serveGuest_own_iff (htoken : token ≠ some v) (r : GuestRequest) :
    OwnKept v s (serveGuest ext env s token r) ↔
      ¬Confirms v s (.call ⟨env, token, .guest r⟩) := by
  cases token with
  | none =>
    rw [serveGuest_none]
    exact iff_of_true (ownKept_refl v s) id
  | some u =>
    have hne : u ≠ v := fun hsame => htoken (congrArg some hsame)
    have hkept : ∀ {s' : Store}, OthersKept u s s' → OwnKept v s s' := ownKept_of_others hne
    cases r with
    | makePayment data => exact makePayment_own_iff hne data
    | createBooking data => exact iff_of_true (hkept (createBookingEndpoint_kept data)) id
    | cancelBooking bookingId => exact iff_of_true (hkept (cancelBookingEndpoint_kept bookingId)) id
    | submitReview data => exact iff_of_true (hkept (submitReview_kept data)) id
    | editReview reviewId data => exact iff_of_true (hkept (editReview_kept reviewId data)) id
    | removeReview reviewId => exact iff_of_true (hkept (removeReview_kept reviewId)) id
    | readNotification notificationId =>
      exact iff_of_true (hkept (readNotification_kept notificationId)) id
    | readAllNotifications => exact iff_of_true (hkept readAllNotifications_kept) id
    | addToWishlist hotelId => exact iff_of_true (hkept (saveItem_kept _)) id
    | removeFromWishlist hotelId => exact iff_of_true (hkept (unsaveItem_kept _ _)) id
    | saveRoom roomId => exact iff_of_true (hkept (saveItem_kept _)) id
    | unsaveRoom roomId => exact iff_of_true (hkept (unsaveItem_kept _ _)) id
    | updateProfile data => exact iff_of_true (hkept (updateProfile_kept data)) id
    | changePassword data => exact iff_of_true (hkept (changePassword_kept data)) id

/-- The tables that the guest's answers come from. -/
def TableName.isAnswered : TableName → Bool
  | .bookings | .payments | .reviews | .notifications | .wishlistItems => true
  | _ => false

theorem ownIn_of_not_answered {n : TableName} (h : n.isAnswered = false) : OwnIn v s s' n := by
  cases n with
  | bookings => cases h
  | payments => cases h
  | reviews => cases h
  | notifications => cases h
  | wishlistItems => cases h
  | _ => trivial

/-- All other requests write none of these. -/
theorem writes_not_answered {r : Request} (hguest : ∀ g, r ≠ .guest g) (hdesk : ∀ d, r ≠ .desk d) :
    ∀ n ∈ r.writes, n.isAnswered = false := by
  cases r with
  | guest g => exact absurd rfl (hguest g)
  | desk d => exact absurd rfl (hdesk d)
  | auth r => cases r <;> simp [Request.writes, PublicRequest.writes, TableName.isAnswered]
  | hotel r => cases r <;> simp [Request.writes, HotelRequest.writes, TableName.isAnswered]
  | user r => cases r <;> simp [Request.writes, UserRequest.writes, TableName.isAnswered]
  | _ => simp [Request.writes, TableName.isAnswered]

theorem not_confirms_of_not_guest {r : Request} (hguest : ∀ g, r ≠ .guest g) :
    ¬Confirms v s (.call ⟨env, token, r⟩) := by
  cases r with
  | guest g => exact absurd rfl (hguest g)
  | _ => cases token <;> exact id

theorem act_own_iff (ext : Ext) (a : Action) (h : FromOthers v a) :
    OwnKept v s (act ext s a) ↔ ¬Confirms v s a := by
  cases a with
  | payment env c => exact processPayment_own_iff env c h
  | call c =>
    obtain ⟨env, token, r⟩ := c
    have hother : (∀ g, r ≠ .guest g) → (∀ d, r ≠ .desk d) →
        (OwnKept v s (act ext s (.call ⟨env, token, r⟩)) ↔
          ¬Confirms v s (.call ⟨env, token, r⟩)) := by
      intro hguest hdesk
      refine iff_of_true (ownKept_of_agree (serve_agree ext env s token r) fun n hn => ?_)
        (not_confirms_of_not_guest hguest)
      exact ownIn_of_not_answered (writes_not_answered hguest hdesk n hn)
    cases r with
    | guest g => exact serveGuest_own_iff h g
    | desk d => exact h.elim
    | _ => exact hother (fun _ => nofun) fun _ => nofun

theorem get_removeUser {userId : ℤ} (hne : userId ≠ v) :
    (committed s (removeUser s token userId)).users.get v = s.users.get v := by
  cases hgoes : removeUser s token userId with
  | error e => rfl
  | ok a =>
    simp only [removeUser, bind_eq_ok, found_eq_ok, pure_eq_ok] at hgoes
    obtain ⟨_, _, _, _, row, hrow, _, _, rfl⟩ := hgoes
    have hid : row.id = userId := ((Table.get_eq_some _).mp hrow).2
    show (s.users.delete row.id).get v = s.users.get v
    rw [Table.get_delete, if_neg (hid.trans_ne hne).symm]

/-- The account stays. -/
theorem act_keeps_user (a : Action) (h : FromOthers v a) (hv : (s.users.get v).isSome = true) :
    ((act ext s a).users.get v).isSome = true := by
  cases a with
  | payment env c =>
    have husers : (processPayment env s c).2.users = s.users :=
      processPayment_agree .users (by decide)
    show ((processPayment env s c).2.users.get v).isSome = true
    rwa [husers]
  | call c =>
    show ((handle ext s c).users.get v).isSome = true
    have hwrite := handle_userWrite ext s c
    generalize husers : (handle ext s c).users = users at hwrite ⊢
    cases hwrite with
    | same => exact hv
    | added u hadds hfits =>
      obtain ⟨row, hrow⟩ := Option.isSome_iff_exists.mp hv
      rw [Table.get_insert_of_get _ hrow]
      rfl
    | changed k f hchange =>
      rw [Table.get_update, Option.isSome_map]
      exact hv
    | removed userId k hr =>
      obtain ⟨env, token, r⟩ := c
      subst hr
      rw [← husers]
      show ((committed s (removeUser s token userId)).users.get v).isSome = true
      rwa [get_removeUser h]

theorem pays_of_confirms (ext : Ext) {a : Action} (h : FromOthers v a)
    (hconfirms : Confirms v s a) :
    ∃ env c, c.userId ≠ v ∧ act ext s a = (processPayment env s c).2 := by
  cases a with
  | payment env c => exact ⟨env, c, h, rfl⟩
  | call c =>
    obtain ⟨env, token, r⟩ := c
    cases token with
    | none => exact hconfirms.elim
    | some u =>
      cases r with
      | guest g =>
        cases g with
        | makePayment data =>
          obtain ⟨user, huser⟩ := caller_of_confirmsOf hconfirms
          exact ⟨env, _, fun hsame : u = v => h (congrArg some hsame), makePayment_pays huser data⟩
        | _ => exact hconfirms.elim
      | _ => exact hconfirms.elim

/-- The list of bookings shows a payment by somebody else. -/
theorem ownKept_of_bookings {a : Action} (h : FromOthers v a)
    (hbookings : OwnIn v s (act ext s a) .bookings) : OwnKept v s (act ext s a) := by
  by_cases hconfirms : Confirms v s a
  · obtain ⟨env, c, hne, hact⟩ := pays_of_confirms ext h hconfirms
    rw [hact] at hbookings ⊢
    exact (processPayment_ownKept env c hne).mpr hbookings
  · exact (act_own_iff ext a h).mpr hconfirms

theorem bookings_of_answer (hv : (s.users.get v).isSome = true)
    (hv' : (s'.users.get v).isSome = true)
    (h : GuestRead.bookings.answer s' (some v) = GuestRead.bookings.answer s (some v)) :
    OwnIn v s s' .bookings := by
  obtain ⟨user, huser⟩ := Option.isSome_iff_exists.mp hv
  obtain ⟨user', huser'⟩ := Option.isSome_iff_exists.mp hv'
  have hcaller : getCurrentUser s (some v) = .ok user := getCurrentUser_eq_ok.mpr ⟨v, rfl, huser⟩
  have hcaller' : getCurrentUser s' (some v) = .ok user' :=
    getCurrentUser_eq_ok.mpr ⟨v, rfl, huser'⟩
  simp only [GuestRead.answer, listUserBookingsEndpoint, hcaller, hcaller', bind, Except.bind,
    id_of_getCurrentUser hcaller, id_of_getCurrentUser hcaller', pure, Except.pure, Except.map,
    Except.ok.injEq, GuestAnswer.bookings.injEq] at h
  exact h

/-- A guest who is answered at all has an account. -/
theorem user_of_answer (hv : (s.users.get v).isSome = true)
    (h : GuestRead.bookings.answer s' (some v) = GuestRead.bookings.answer s (some v)) :
    (s'.users.get v).isSome = true := by
  obtain ⟨user, huser⟩ := Option.isSome_iff_exists.mp hv
  have hcaller : getCurrentUser s (some v) = .ok user := getCurrentUser_eq_ok.mpr ⟨v, rfl, huser⟩
  cases hcaller' : getCurrentUser s' (some v) with
  | ok user' =>
    obtain ⟨_, hid, hget⟩ := getCurrentUser_eq_ok.mp hcaller'
    cases hid
    rw [hget]
    rfl
  | error e =>
    simp [GuestRead.answer, listUserBookingsEndpoint, hcaller, hcaller', bind, Except.bind, pure,
      Except.pure, Except.map] at h

theorem act_answers_iff (ext : Ext) {a : Action} (h : FromOthers v a)
    (hv : (s.users.get v).isSome = true) :
    (∀ r : GuestRead, r.answer (act ext s a) (some v) = r.answer s (some v)) ↔
      ¬Confirms v s a := by
  have hv' : ((act ext s a).users.get v).isSome = true := act_keeps_user a h hv
  rw [← act_own_iff ext a h]
  exact ⟨fun hsame => ownKept_of_bookings h (bookings_of_answer hv hv' (hsame .bookings)),
    fun hown => answer_eq hown hv hv'⟩

end

/-- What everybody else asks for leaves what the guest is answered as it is, up to the
first payment of a pending booking of the guest. -/
theorem guest_answers_isolated_iff (ext : Ext) (s : Store) (v : ℤ)
    (hv : (s.users.get v).isSome = true) (es : List Action) (hothers : ∀ a ∈ es, FromOthers v a) :
    Always (act ext) (fun s' => ∀ r : GuestRead, r.answer s' (some v) = r.answer s (some v)) s es ↔
      Along (act ext) (fun s' a => ¬Confirms v s' a) s es := by
  refine always_iff_along (J := fun _ => True) (Q := fun _ a => FromOthers v a)
    (fun _ _ _ => trivial) ?_ (along_of_forall fun _ => hothers) trivial fun _ => rfl
  intro s' a _ hother hsame
  have hv' := user_of_answer hv (hsame .bookings)
  rw [← act_answers_iff ext hother hv']
  simp only [hsame]

def sampleVisit : List Action :=
  [books 2 20 22 (by decide), asks 2 (.guest (.addToWishlist 1)),
    asks 2 (.guest (.makePayment ⟨2, 200, "card", "USD"⟩))]

/-- A second guest books another stay and pays for it. -/
theorem guest_answers_isolated_sampleVisit :
    Always (act sampleExt) (fun s' => ∀ r : GuestRead,
      r.answer s' (some 1) = r.answer bookedStore (some 1)) bookedStore sampleVisit := by
  have hothers : ∀ a ∈ sampleVisit, FromOthers 1 a := by
    simp [sampleVisit, books, asks, FromOthers]
  refine (guest_answers_isolated_iff sampleExt bookedStore 1 (by decide +kernel) sampleVisit
    hothers).mpr ⟨id, id, ?_, trivial⟩
  rintro ⟨_, b, hb, hown, _⟩
  have hguest : ((run (act sampleExt) bookedStore (sampleVisit.take 2)).bookings.get 2).map
      Booking.userId = some 2 := by decide +kernel
  have hsecond := (congrArg (Option.map Booking.userId) hb).symm.trans hguest
  rw [Option.map_some, hown] at hsecond
  cases hsecond

end

end HotelMs
