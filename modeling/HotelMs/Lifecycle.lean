import HotelMs.OccupancyRuns

/-!
# The lifecycle of a booking

`cancelled` and `completed` are meant to be final: the payment service and
check-in look at the status before they set it. The cancel endpoint does not.
-/

namespace HotelMs

open Tables Runs

/-! ### Lawful steps -/

inductive Lawful : BookingStatus → BookingStatus → Prop
  | pay : Lawful .pending .confirmed
  | withdraw : Lawful .pending .cancelled
  | cancel : Lawful .confirmed .cancelled
  | checkIn : Lawful .confirmed .completed

/-- Every booking is still there, with its status kept or lawfully changed. -/
def StepLawful (s s' : Store) : Prop :=
  ∀ b ∈ s.bookings.rows, ∃ status, { b with status } ∈ s'.bookings.rows ∧
    (status = b.status ∨ Lawful b.status status)

theorem StepLawful.of_eq {s s' : Store} (h : s'.bookings = s.bookings) : StepLawful s s' := by
  intro b hb
  rw [h]
  exact ⟨b.status, hb, Or.inl rfl⟩

theorem stepLawful_insert {s s' : Store} {x : Booking} (h : s'.bookings = s.bookings.insert x) :
    StepLawful s s' := by
  intro b hb
  rw [h]
  exact ⟨b.status, (Table.mem_insert _).mpr (Or.inl hb), Or.inl rfl⟩

theorem stepLawful_setStatus {s s' : Store} {id : ℤ} {status : BookingStatus} {b : Booking}
    (h : s'.bookings = (setStatus s id status).bookings) (hb : s.bookings.get id = some b)
    (hstatus : status = b.status ∨ Lawful b.status status) : StepLawful s s' := by
  intro x hx
  rw [h]
  by_cases hid : x.id = id
  · obtain rfl := s.bookings.eq_of_key hx ((Table.get_eq_some _).mp hb).1
      (hid.trans ((Table.get_eq_some _).mp hb).2.symm)
    exact ⟨status, (mem_setStatus hb).mpr (Or.inl rfl), hstatus⟩
  · exact ⟨x.status, (mem_setStatus hb).mpr (Or.inr ⟨hx, hid⟩), Or.inl rfl⟩

/-! ### One action -/

/-- A guest cancels a booking of theirs that is completed. -/
def CancelsCompleted (s : Store) : Action → Prop
  | .call ⟨_, token, .guest (.cancelBooking bookingId)⟩ => ∃ b ∈ s.bookings.get bookingId,
      b.status = .completed ∧ ∃ user ∈ token.bind s.users.get, b.userId = user.id
  | _ => False

theorem not_lawful_of_completed {status : BookingStatus} : ¬Lawful .completed status := by
  rintro ⟨⟩

theorem cancelBooking_lawful_iff (s : Store) (env : Env) (token : Bearer) (bookingId : ℤ) :
    StepLawful s (committed s (cancelBookingEndpoint s token bookingId)) ↔
      ¬CancelsCompleted s (.call ⟨env, token, .guest (.cancelBooking bookingId)⟩) := by
  constructor
  · intro h hcancel
    obtain ⟨b, hb, hdone, user, huser, hown⟩ := hcancel
    obtain ⟨id, rfl, hget⟩ := Option.bind_eq_some_iff.mp huser
    have hcaller : getCurrentUser s (some id) = .ok user :=
      getCurrentUser_eq_ok.mpr ⟨id, rfl, hget⟩
    rw [cancelBookingEndpoint_eq_ok.mpr ⟨user, b, hcaller, hb, hown, rfl⟩] at h
    obtain ⟨status, hrow, hstatus⟩ := h b ((Table.get_eq_some _).mp hb).1
    rcases (mem_setStatus hb).mp hrow with heq | hother
    · have hcancelled : status = .cancelled := congrArg Booking.status heq
      rw [hcancelled, hdone] at hstatus
      rcases hstatus with hstatus | hstatus
      · cases hstatus
      · exact not_lawful_of_completed hstatus
    · exact hother.2 ((Table.get_eq_some _).mp hb).2
  · intro h
    cases hr : cancelBookingEndpoint s token bookingId with
    | error e => exact .of_eq rfl
    | ok r =>
      obtain ⟨user, b, huser, hb, hown, rfl⟩ := cancelBookingEndpoint_eq_ok.mp hr
      obtain ⟨id, rfl, hget⟩ := getCurrentUser_eq_ok.mp huser
      refine stepLawful_setStatus rfl hb ?_
      cases hs : b.status with
      | pending => exact Or.inr .withdraw
      | confirmed => exact Or.inr .cancel
      | cancelled => exact Or.inl rfl
      | completed => exact absurd ⟨b, hb, hs, user, hget, hown⟩ h

theorem processPayment_lawful (env : Env) (s : Store) (c : PaymentCall) :
    StepLawful s (processPayment env s c).2 := by
  have ho := processPayment_outcome env s c
  generalize (processPayment env s c).2 = s' at ho ⊢
  cases ho with
  | refused h => exact .of_eq rfl
  | unpaid h hs hg => exact .of_eq rfl
  | paid h hg hf =>
    obtain ⟨b, hb⟩ := h.check
    obtain ⟨_, hget, hc, hd⟩ := paymentCheck_eq_ok.mp hb
    refine stepLawful_setStatus rfl hget ?_
    cases hs : b.status with
    | pending => exact Or.inr .pay
    | confirmed => exact Or.inl rfl
    | cancelled => exact absurd hs hc
    | completed => exact absurd hs hd

theorem makePayment_lawful (env : Env) (s : Store) (token : Bearer) (data : PaymentRequest) :
    StepLawful s (makePayment env s token data).2 := by
  rcases makePayment_cases env s token data with h | ⟨user, _, h⟩
  · rw [h]
    exact .of_eq rfl
  · rw [h]
    exact processPayment_lawful env s _

theorem createBooking_lawful (env : Env) (s : Store) (token : Bearer) (data : BookingCreate) :
    StepLawful s (committed s (createBookingEndpoint env s token data)) := by
  rcases createBookingEndpoint_bookings env s token data with h | h
  · exact .of_eq h
  · obtain ⟨b, _, _, _, _, _, _, h⟩ := h
    exact stepLawful_insert h

theorem checkInBooking_lawful (env : Env) (s : Store) (token : Bearer) (bookingId : ℤ) :
    StepLawful s (checkInBooking env s token bookingId).2 := by
  rcases checkInBooking_bookings env s token bookingId with h | h
  · exact .of_eq h
  · obtain ⟨b, hb, hconfirmed, h⟩ := h
    refine stepLawful_setStatus h hb (Or.inr ?_)
    rw [hconfirmed]
    exact .checkIn

theorem CancelsCompleted.writes {s : Store} {c : Call} (h : CancelsCompleted s (.call c)) :
    TableName.bookings ∈ c.request.writes := by
  unfold CancelsCompleted at h
  split at h
  next heq =>
    cases heq
    simp [Request.writes, GuestRequest.writes]
  next => exact h.elim

/-- Apart from the override, only cancelling a completed booking breaks the lifecycle. -/
theorem act_lawful_iff (ext : Ext) (s : Store) (a : Action) (h : a.isOverride = false) :
    StepLawful s (act ext s a) ↔ ¬CancelsCompleted s a := by
  cases a with
  | payment env c => exact iff_of_true (processPayment_lawful env s c) id
  | call c =>
    by_cases hw : TableName.bookings ∈ c.request.writes
    · obtain ⟨env, token, request⟩ := c
      cases Request.books_of_writes hw with
      | create data => exact iff_of_true (createBooking_lawful env s token data) id
      | cancel bookingId => exact cancelBooking_lawful_iff s env token bookingId
      | pay data => exact iff_of_true (makePayment_lawful env s token data) id
      | checkIn bookingId => exact iff_of_true (checkInBooking_lawful env s token bookingId) id
      | override bookingId newStatus => cases h
    · have hsame : (act ext s (.call c)).bookings = s.bookings :=
        serve_agree ext c.env s c.token c.request .bookings hw
      exact iff_of_true (.of_eq hsame) fun hc => hw hc.writes

/-! ### Whole runs -/

/-- Some search offers the room of `b` for a night of its stay. -/
def Offered (b : Booking) (s : Store) : Prop :=
  ∃ hotelId checkIn checkOut night, night ∈ b.stay ∧ night ∈ Set.Ico checkIn checkOut ∧
    ∃ r ∈ getAvailableRooms s hotelId checkIn checkOut, r.id = b.roomId

def CheckedIn (b : Booking) (s : Store) : Prop :=
  b ∈ s.bookings.rows ∧ b.status = .completed

theorem not_offered_of_checkedIn {s : Store} {b : Booking} (hagree : HotelsAgree s)
    (h : CheckedIn b s) : ¬Offered b s := by
  intro hoffered
  obtain ⟨hotelId, checkIn, checkOut, night, hb, hn, r, hr, hid⟩ := hoffered
  obtain ⟨hmem, hhotel, _, _, hfree⟩ := mem_getAvailableRooms.mp hr
  obtain ⟨r', hr', hid', hhotel'⟩ := hagree b h.1
  obtain rfl := s.rooms.eq_of_key hmem hr' (hid.trans hid'.symm)
  have hlive : b.Live := by
    rw [Booking.Live, h.2]
    decide
  have hover := overlapping_of_share (hhotel'.symm.trans hhotel) hlive hb hn
  rw [hfree b h.1 hid.symm] at hover
  cases hover

theorem checkedIn_of_stepLawful {s s' : Store} {b : Booking} (h : StepLawful s s')
    (hb : CheckedIn b s) : CheckedIn b s' := by
  obtain ⟨status, hrow, hstatus⟩ := h b hb.1
  rw [hb.2] at hstatus
  rcases hstatus with rfl | hstatus
  · have hsame : { b with status := .completed } = b := by
      rw [← hb.2]
    exact ⟨hsame ▸ hrow, hb.2⟩
  · exact absurd hstatus not_lawful_of_completed

/-- A run without the override keeps to the lifecycle, and never offers the room
of a guest after check-in, exactly when nobody cancels a completed booking. -/
theorem lifecycle_kept_iff (ext : Ext) (s : Store) (hagree : HotelsAgree s) (as : List Action)
    (hserial : ∀ a ∈ as, a.isOverride = false) :
    Along (act ext) (fun t a => StepLawful t (act ext t a)) s as ∧
        (∀ b, NeverAfter (act ext) (CheckedIn b) (Offered b) s as) ↔
      Along (act ext) (fun t a => ¬CancelsCompleted t a) s as := by
  have hplain : Along (act ext) (fun _ a => a.isOverride = false) s as :=
    along_of_forall fun _ => hserial
  constructor
  · intro h
    exact (along_and.mpr ⟨hplain, h.1⟩).mono fun t a ha => (act_lawful_iff ext t a ha.1).mp ha.2
  · intro h
    have hlawful := (along_and.mpr ⟨hplain, h⟩).mono fun t a ha =>
      And.intro ha.1 ((act_lawful_iff ext t a ha.1).mpr ha.2)
    refine ⟨hlawful.mono fun t a ha => ha.2, fun b pre mid suf he hin => ?_⟩
    have hstep : ∀ t a, HotelsAgree t → a.isOverride = false ∧ StepLawful t (act ext t a) →
        HotelsAgree (act ext t a) := fun t a ht ha =>
      hotelsAgree_step ht (act_move ext t a ha.1) (act_roomsStay ext t a)
    rw [he, along_append] at hlawful
    have hagree' := run_invariant hstep hagree hlawful.1
    have hin' : CheckedIn b (run (act ext) s (pre ++ mid)) := by
      rw [run_append]
      exact run_invariant (fun t a ht ha => checkedIn_of_stepLawful ha.2 ht) hin
        (along_append.mp hlawful.1).2
    exact not_offered_of_checkedIn hagree' hin'

/-- Guest 1 books, pays and is checked in. -/
def stayBegins : List Action :=
  [asks 1 (.guest (.createBooking sampleStay)),
    .payment (sampleEnv "txn_1") ⟨1, 1, 200, "card", "USD"⟩, asks 3 (.desk (.checkIn 1))]

theorem lifecycle_kept_iff_stay :
    Along (act sampleExt) (fun t a => StepLawful t (act sampleExt t a)) sampleStore stayBegins ∧
        (∀ b, NeverAfter (act sampleExt) (CheckedIn b) (Offered b) sampleStore stayBegins) ↔
      Along (act sampleExt) (fun t a => ¬CancelsCompleted t a) sampleStore stayBegins :=
  lifecycle_kept_iff sampleExt sampleStore (soundOccupancy_empty rfl).hotels stayBegins (by decide)

theorem guest_cancels_completed :
    (run (act sampleExt) sampleStore stayBegins).bookings.rows.map Booking.status = [.completed] ∧
      isAvailable (run (act sampleExt) sampleStore stayBegins) 1 1 10 12 = false ∧
      (run (act sampleExt) sampleStore
        (stayBegins ++ [asks 1 (.guest (.cancelBooking 1))])).bookings.rows.map Booking.status =
          [.cancelled] ∧
      isAvailable (run (act sampleExt) sampleStore
        (stayBegins ++ [asks 1 (.guest (.cancelBooking 1))])) 1 1 10 12 = true := by
  decide +kernel

end HotelMs
