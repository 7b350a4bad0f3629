import HotelMs.AdminIntegrity
import HotelMs.Interleaving
import HotelMs.ReviewRace

/-!
# The schema over whole runs

No request, and no step of one, leaves a store that breaks a constraint of the
schema. So what a listing joins with is always there.
-/

namespace HotelMs

open Tables References Runs

section

variable {s : Store} {ext : Ext} {env : Env} {token : Bearer}

/-! ### Requests -/

theorem servePublic_sound (r : PublicRequest) (h : s.Sound) :
    (servePublic ext env s r).Sound := by
  cases r with
  | register data => exact registerUser_keeps.committed h
  | login email password => exact h
  | socialLogin reply => exact socialLogin_keeps.committed h
  | googleLogin reply => exact googleLogin_keeps.committed h
  | verifyEmail secret => exact verifyEmail_keeps.committed h
  | resendVerification email => exact resendVerification_keeps.committed h
  | forgotPassword email => exact forgotPassword_keeps.committed h
  | resetPassword secret new => exact resetPassword_keeps.committed h

theorem serveGuest_sound (r : GuestRequest) (h : s.Sound) :
    (serveGuest ext env s token r).Sound := by
  cases r with
  | createBooking data => exact createBookingEndpoint_keeps.committed h
  | cancelBooking bookingId => exact cancelBookingEndpoint_keeps.committed h
  | makePayment data => exact makePayment_keeps data h
  | submitReview data => exact submitReview_keeps.committed h
  | editReview reviewId data => exact editReview_keeps.committed h
  | removeReview reviewId => exact removeReview_keeps.committed h
  | readNotification notificationId => exact readNotification_keeps.committed h
  | readAllNotifications => exact readAllNotifications_keeps.committed h
  | addToWishlist hotelId => exact saveItem_keeps.committed h
  | removeFromWishlist hotelId => exact unsaveItem_keeps.committed h
  | saveRoom roomId => exact saveItem_keeps.committed h
  | unsaveRoom roomId => exact unsaveItem_keeps.committed h
  | updateProfile data => exact updateProfile_keeps.committed h
  | changePassword data => exact changePassword_keeps.committed h

theorem serveDesk_sound (r : DeskRequest) (h : s.Sound) : (serveDesk env s token r).Sound := by
  cases r with
  | checkIn bookingId => exact checkInBooking_keeps bookingId h
  | checkOut bookingId => exact checkOutBooking_keeps.committed h
  | update bookingId newStatus => exact updateBooking_keeps.committed h

theorem serveUser_sound (r : UserRequest) (h : s.Sound) :
    (serveUser ext env s token r).Sound := by
  cases r with
  | add data => exact addUser_keeps.committed h
  | edit userId data => exact editUser_keeps.committed h
  | remove userId => exact removeUser_keeps.committed h
  | addNote userId body => exact addGuestNote_keeps.committed h
  | deleteNote userId noteId => exact deleteGuestNote_keeps.committed h
  | ban userId body => exact StaysSound.committed (adminEdit_keeps fun _ => rfl) h
  | toggleVip userId => exact StaysSound.committed (adminEdit_keeps fun _ => rfl) h
  | loyalty userId body => exact StaysSound.committed (adminEdit_keeps fun _ => rfl) h
  | segment userId label => exact StaysSound.committed (adminEdit_keeps fun _ => rfl) h
  | blacklist userId body => exact StaysSound.committed (adminEdit_keeps fun _ => rfl) h

theorem serve_sound (r : Request) (h : s.Sound) : (serve ext env s token r).Sound := by
  cases r with
  | auth r => exact servePublic_sound r h
  | guest r => exact serveGuest_sound r h
  | photo r =>
    cases r with
    | delete => exact setPhoto_keeps.committed h
    | upload contentType size uploaded => exact uploadPhoto_keeps.committed h
  | desk r => exact serveDesk_sound r h
  | hotel r =>
    cases r with
    | create data => exact createHotel_keeps.committed h
    | update hotelId data => exact updateHotel_keeps.committed h
    | delete hotelId => exact deleteHotel_keeps.committed h
  | roomType r =>
    cases r with
    | create data => exact createRoomType_keeps.committed h
    | update typeId data => exact updateRoomType_keeps.committed h
    | delete typeId => exact deleteRoomType_keeps.committed h
  | room r =>
    cases r with
    | create data => exact createRoom_keeps.committed h
    | update roomId data => exact updateRoom_keeps.committed h
    | delete roomId => exact updateRoom_keeps.committed h
  | pricing r =>
    cases r with
    | create data => exact createPricingRule_keeps.committed h
    | delete ruleId => exact deletePricingRule_keeps.committed h
  | blackout r =>
    cases r with
    | create data => exact createBlackout_keeps.committed h
    | delete blackoutId => exact deleteBlackout_keeps.committed h
  | user r => exact serveUser_sound r h
  | read => exact h

theorem act_sound (a : Action) (h : s.Sound) : (act ext s a).Sound := by
  cases a with
  | call c => exact serve_sound c.request h
  | payment env c => exact processPayment_keeps c h

/-! ### Interleaved requests -/

theorem taskStep_sound (task : Task) (h : s.Sound) : (taskStep env s task).2.Sound := by
  cases task with
  | creating token data =>
    simp only [taskStep]
    split
    · exact h
    · exact h
  | quoted row => exact createBooking_keeps.committed h
  | paying c phase => exact payStep_keeps c phase h
  | cancelling token bookingId =>
    simp only [taskStep]
    split
    · exact h
    · exact h
  | owned bookingId loaded =>
    simp only [taskStep]
    split
    · exact h
    · exact h.setStatus bookingId .cancelled
  | done => exact h

theorem reviewStep_sound (task : ReviewTask) (h : s.Sound) :
    (reviewStep env s task).2.Sound := by
  cases task with
  | submitting token data =>
    simp only [reviewStep]
    split
    · exact h
    · exact h
  | eligible userId data =>
    simp only [reviewStep]
    split
    · exact h
    · exact h
  | cleared userId data => exact createReview_keeps.committed h
  | editing token reviewId data =>
    simp only [reviewStep]
    split
    · exact h
    · exact h
  | edited review data =>
    simp only [reviewStep]
    split
    next hrating => exact h.updateReviews hrating
    next => exact h
  | removing token reviewId =>
    simp only [reviewStep]
    split
    · exact h
    · exact h
  | removed review => exact h.deleteReviews review.id
  | done => exact h

/-- Requests of all kinds, those on bookings, payments and reviews also one
database step at a time. -/
structure Site where
  store : Store
  tasks : ℕ → Task
  reviews : ℕ → ReviewTask

inductive SiteMove
  | whole (a : Action)
  | task (i : ℕ) (env : Env)
  | review (i : ℕ) (env : Env)

def Site.step (ext : Ext) (y : Site) : SiteMove → Site
  | .whole a => { y with store := act ext y.store a }
  | .task i env => { y with
      store := (taskStep env y.store (y.tasks i)).2
      tasks := Function.update y.tasks i (taskStep env y.store (y.tasks i)).1 }
  | .review i env => { y with
      store := (reviewStep env y.store (y.reviews i)).2
      reviews := Function.update y.reviews i (reviewStep env y.store (y.reviews i)).1 }

def Site.Sound (y : Site) : Prop := y.store.Sound

theorem site_step_sound (y : Site) (turn : SiteMove) (h : y.Sound) : (y.step ext turn).Sound := by
  cases turn with
  | whole a => exact act_sound a h
  | task i env => exact taskStep_sound (y.tasks i) h
  | review i env => exact reviewStep_sound (y.reviews i) h

theorem site_run_sound (y : Site) (h : y.Sound) (turns : List SiteMove) :
    (run (Site.step ext) y turns).Sound :=
  run_invariant (P := fun _ _ => True) (fun y turn hy _ => site_step_sound y turn hy) h
    (along_of_forall fun _ _ _ => trivial)

end

/-- In every run, interleaved or not, every store meets the schema: each reference
leads to a row, unique columns are unique and the checks hold. -/
theorem schema_kept (ext : Ext) (y : Site) (h : y.Sound) (turns : List SiteMove) :
    Always (Site.step ext) Site.Sound y turns :=
  always_of_along (fun y turn hy _ => site_step_sound y turn hy) h
    (along_of_forall fun _ _ _ => trivial)

/-! ### From a small store on -/

theorem empty_sound : Store.empty.Sound := by
  refine ⟨fun n p hp => ?_, fun n => ?_⟩
  · cases n with
    | _ =>
      obtain ⟨r, hr, _⟩ := hp
      cases hr
  · have hunique : ∀ {α β : Type} [Keyed α] (f : α → Option β), Table.empty.UniqueBy f :=
      fun f r hr => by cases hr
    cases n with
    | users => exact hunique _
    | payments => exact ⟨hunique _, fun r hr => by cases hr⟩
    | reviews => exact fun r hr => by cases hr
    | pricingRules => exact fun r hr => by cases hr
    | wishlistItems => exact ⟨hunique _, hunique _⟩
    | emailVerifications => exact hunique _
    | passwordResets => exact hunique _
    | _ => exact trivial

theorem sampleStore_sound : sampleStore.Sound := by
  have hgrand : (.hotels, 1) ∈ schema.present sampleStore := present_hotel.mpr (by decide)
  have hdouble : (.roomTypes, 1) ∈ schema.present sampleStore := present_roomType.mpr (by decide)
  refine ⟨fun n p hp => ?_, fun n => ?_⟩
  · cases n with
    | hotels =>
      obtain ⟨r, _, hlink⟩ := hp
      cases hlink
    | roomTypes =>
      obtain ⟨r, hr, hlink⟩ := hp
      obtain rfl := List.mem_singleton.mp hr
      obtain rfl := List.mem_singleton.mp hlink
      exact hgrand
    | rooms =>
      obtain ⟨r, hr, hlink⟩ := hp
      obtain rfl := List.mem_singleton.mp hr
      rcases List.mem_pair.mp hlink with rfl | rfl
      · exact hgrand
      · exact hdouble
    | users =>
      obtain ⟨r, hr, hlink⟩ := hp
      obtain ⟨h, hh, rfl⟩ := mem_links_user.mp hlink
      have hhotels : ∀ u ∈ sampleStore.users.rows, ∀ h ∈ u.hotelId, h = 1 := by decide
      exact hhotels r hr h hh ▸ hgrand
    | _ =>
      obtain ⟨r, hr, _⟩ := hp
      cases hr
  · cases n with
    | users => exact (by decide : sampleStore.users.UniqueBy fun u => some u.email)
    | payments => exact empty_sound.obeyed .payments
    | reviews => exact empty_sound.obeyed .reviews
    | pricingRules => exact empty_sound.obeyed .pricingRules
    | wishlistItems => exact empty_sound.obeyed .wishlistItems
    | emailVerifications => exact empty_sound.obeyed .emailVerifications
    | passwordResets => exact empty_sound.obeyed .passwordResets
    | _ => exact trivial

/-- A stay that one request reads while another takes the room out of service. -/
def busyDay : List SiteMove := [
  .task 0 (sampleEnv "txn_1"),
  .whole (asks 3 (.room (.delete 1))),
  .task 0 (sampleEnv "txn_1"),
  .whole (asks 3 (.hotel (.delete 1))),
  .whole (asks 3 (.user (.remove 1)))]

def busySite : Site where
  store := sampleStore
  tasks := fun _ => .creating (some 1) sampleStay
  reviews := fun _ => .done

theorem schema_kept_sample : Always (Site.step sampleExt) Site.Sound busySite busyDay :=
  schema_kept sampleExt busySite sampleStore_sound busyDay

/-! ### What readers can rely on -/

/-- What an entry of the desk's list is joined with is there. -/
structure BookingAdminResponse.Resolved (s : Store) (e : BookingAdminResponse) : Prop where
  guest : ∃ u, s.users.get e.userId = some u ∧ e.guestName = u.fullName ∧
    e.guestEmail = some u.email
  room : (s.rooms.get e.roomId).isSome = true
  hotel : (s.hotels.get e.hotelId).isSome = true

theorem adminResponse_resolved {s : Store} (h : s.Sound) {b : Booking}
    (hb : b ∈ s.bookings.rows) : (b.adminResponse s).Resolved s := by
  have hlink : ∀ p ∈ Linked.links b, p ∈ schema.present s := fun p hp =>
    h.closed .bookings ⟨b, hb, hp⟩
  simp only [Linked.links, List.forall_mem_cons, List.not_mem_nil] at hlink
  obtain ⟨hhotel, huser, hroom, _⟩ := hlink
  obtain ⟨u, hu⟩ := Option.isSome_iff_exists.mp (present_user.mp huser)
  refine ⟨⟨u, hu, ?_, ?_⟩, present_room.mp hroom, present_hotel.mp hhotel⟩
  · exact (congrArg (Option.bind · User.fullName) hu).trans rfl
  · exact (congrArg (Option.map User.email) hu).trans rfl

/-- After any run, the desk's list has the entry of each booking of the caller's scope
once, with its guest, its room and its hotel. -/
theorem desk_list_resolved (ext : Ext) (y : Site) (h : y.Sound) (turns : List SiteMove)
    (token : Bearer) (statusFilter : Option String) (entries : List BookingAdminResponse)
    (hlist : listAllBookings (run (Site.step ext) y turns).store token statusFilter =
      .ok entries) :
    ∃ user, getCurrentUser (run (Site.step ext) y turns).store token = .ok user ∧
      (entries.map BookingAdminResponse.id).Nodup ∧
      (∀ e, e ∈ entries ↔ ∃ b ∈ (run (Site.step ext) y turns).store.bookings.rows,
        b.adminResponse (run (Site.step ext) y turns).store = e ∧
          (∀ hotel ∈ getOptionalHotel user, b.hotelId = hotel) ∧
          b.hasStatus statusFilter = true) ∧
      ∀ e ∈ entries, e.Resolved (run (Site.step ext) y turns).store := by
  have hsound : (run (Site.step ext) y turns).store.Sound := site_run_sound y h turns
  generalize (run (Site.step ext) y turns).store = s at hlist hsound ⊢
  simp only [listAllBookings, bind_eq_ok, pure_eq_ok] at hlist
  obtain ⟨user, huser, _, _, rfl⟩ := hlist
  have hids : ∀ l : List Booking,
      (l.map (Booking.adminResponse s)).map BookingAdminResponse.id = l.map Booking.id := by
    intro l
    rw [List.map_map]
    rfl
  have hselected := List.perm_insertionSort (fun a b : Booking => b.createdAt ≤ a.createdAt)
    (s.bookings.select fun b =>
      (getOptionalHotel user).all (fun h => b.hotelId = h) && b.hasStatus statusFilter)
  refine ⟨user, huser, ?_, fun e => ?_, fun e he => ?_⟩
  · rw [hids, (hselected.map Booking.id).nodup_iff]
    exact s.bookings.distinct.sublist (List.filter_sublist.map Booking.id)
  · rw [(hselected.map (Booking.adminResponse s)).mem_iff]
    simp only [List.mem_map, Table.mem_select, Bool.and_eq_true, Option.all_eq_true,
      decide_eq_true_eq]
    constructor
    · intro hentry
      obtain ⟨b, ⟨hb, hscope, hstatus⟩, hresponse⟩ := hentry
      exact ⟨b, hb, hresponse, hscope, hstatus⟩
    · intro hentry
      obtain ⟨b, hb, hresponse, hscope, hstatus⟩ := hentry
      exact ⟨b, ⟨hb, hscope, hstatus⟩, hresponse⟩
  · obtain ⟨b, hb, rfl⟩ := List.mem_map.mp he
    exact adminResponse_resolved hsound ((Table.mem_select _).mp (hselected.mem_iff.mp hb)).1

def busyEntry : BookingAdminResponse :=
  ⟨1, 1, 1, 1, 10, 12, 200, .pending, none, some "a@x.org"⟩

theorem desk_list_resolved_busyDay :
    busyEntry.Resolved (run (Site.step sampleExt) busySite busyDay).store := by
  obtain ⟨_, _, _, _, hresolved⟩ := desk_list_resolved sampleExt busySite sampleStore_sound busyDay
    (some 3) none [busyEntry] (by decide +kernel)
  exact hresolved busyEntry List.mem_cons_self

end HotelMs
