import HotelMs.OccupancyRuns

/-!
# Interleaved requests

Guest requests whose database steps are taken one at a time, in any order. Every
read sees what is committed when it is made and a commit is one step. A booking
request reads availability, then inserts; a cancellation reads the booking,
then writes its status; a payment takes the steps of `payStep`.
-/

namespace HotelMs

open Tables Runs

inductive Task
  | creating (token : Bearer) (data : BookingCreate)
  | quoted (row : BookingData)
  | paying (c : PaymentCall) (phase : PayPhase)
  | cancelling (token : Bearer) (bookingId : ℤ)
  | owned (bookingId : ℤ) (loaded : BookingStatus)
  | done

def cancelRead (s : Store) (token : Bearer) (bookingId : ℤ) : Except Error Booking := do
  let user ← getCurrentUser s token
  getOwnBooking s user.id bookingId

def taskStep (env : Env) (s : Store) : Task → Task × Store
  | .creating token data =>
    match createBookingRead s token data with
    | .error _ => (.done, s)
    | .ok row => (.quoted row, s)
  | .quoted row => (.done, committed s (createBooking s env.now row))
  | .paying c phase => (.paying c (payStep env c s phase).1, (payStep env c s phase).2)
  | .cancelling token bookingId =>
    match cancelRead s token bookingId with
    | .error _ => (.done, s)
    | .ok b => (.owned bookingId b.status, s)
  -- the session keeps the status it loaded, and assigning that value writes nothing
  | .owned bookingId loaded =>
    (.done, if loaded = .cancelled then s else setStatus s bookingId .cancelled)
  | .done => (.done, s)

structure System where
  store : Store
  tasks : ℕ → Task

structure Event where
  task : ℕ
  env : Env

def sysStep (y : System) (e : Event) : System where
  store := (taskStep e.env y.store (y.tasks e.task)).2
  tasks := Function.update y.tasks e.task (taskStep e.env y.store (y.tasks e.task)).1

/-! ### Availability read, then insert -/

def bookingRequests (s : Store) (requests : ℕ → Bearer × BookingCreate) : System where
  store := s
  tasks := fun i => .creating (requests i).1 (requests i).2

/-- What a quoted row keeps from the availability test, whoever inserts in
between: the room takes bookings, and what overlaps the stay has nights. -/
structure Bookable (s : Store) (row : BookingData) : Prop where
  room : ∃ r ∈ s.rooms.rows, r.id = row.roomId ∧ r.hotelId = row.hotelId ∧ r.isActive = true ∧
    checkBlackoutDates s row.hotelId row.roomId row.checkIn row.checkOut = false
  dates : row.checkIn < row.checkOut
  nights : ∀ b ∈ s.bookings.rows, b.roomId = row.roomId →
    b.overlapping row.hotelId row.checkIn row.checkOut = true → b.checkIn < b.checkOut

theorem bookable_of_read {s : Store} {token : Bearer} {data : BookingCreate} {row : BookingData}
    (h : createBookingRead s token data = .ok row) : Bookable s row := by
  obtain ⟨user, room, _, hroom, havail, rfl⟩ := createBookingRead_eq_ok.mp h
  obtain ⟨r, hr, hid⟩ := isAvailable_iff.mp havail
  obtain ⟨hmem, hhotel, hactive, hblack, _⟩ := mem_getAvailableRooms.mp hr
  refine ⟨⟨r, hmem, hid, hhotel, hactive, ?_⟩, data.validate_date_range, ?_⟩
  · rw [hid] at hblack
    exact hblack
  · intro b hb hbroom hover
    rw [not_overlapping_of_isAvailable havail hb hbroom] at hover
    cases hover

theorem isAvailable_iff_of_bookable {s : Store} {row : BookingData} (h : Bookable s row) :
    isAvailable s row.hotelId row.roomId row.checkIn row.checkOut = true ↔
      ∀ b ∈ s.bookings.rows, b.roomId = row.roomId →
        b.overlapping row.hotelId row.checkIn row.checkOut = false := by
  constructor
  · exact fun ha b hb hroom => not_overlapping_of_isAvailable ha hb hroom
  · intro hno
    obtain ⟨r, hr, hid, hhotel, hactive, hblack⟩ := h.room
    rw [← hid] at hblack hno
    exact isAvailable_iff.mpr
      ⟨r, mem_getAvailableRooms.mpr ⟨hr, hhotel, hactive, hblack, hno⟩, hid⟩

/-- A bookable stay is free when the availability test passes and no booking of
the room under another hotel's id, which that test does not see, is in its way. -/
theorem roomFree_iff_of_bookable {s : Store} {row : BookingData} (h : Bookable s row) :
    RoomFree s.bookings row.roomId (Set.Ico row.checkIn row.checkOut) ↔
      isAvailable s row.hotelId row.roomId row.checkIn row.checkOut = true ∧
      ∀ b ∈ s.bookings.rows, b.roomId = row.roomId → b.hotelId ≠ row.hotelId → b.Live →
        Disjoint b.stay (Set.Ico row.checkIn row.checkOut) := by
  rw [isAvailable_iff_of_bookable h]
  constructor
  · intro hfree
    refine ⟨fun b hb hroom => ?_, fun b hb hroom _ hlive => hfree b hb hroom hlive⟩
    by_contra hover
    rw [Bool.not_eq_false] at hover
    obtain ⟨night, hnb, hns⟩ := share_of_overlapping hover (h.nights b hb hroom hover) h.dates
    have hlive := (overlapping_eq_true.mp hover).2.1
    exact Set.disjoint_left.mp (hfree b hb hroom hlive) hnb hns
  · intro hno b hb hroom hlive
    by_cases hhotel : b.hotelId = row.hotelId
    · rw [Set.disjoint_left]
      intro night hnb hns
      have hover := overlapping_of_share hhotel hlive hnb hns
      rw [hno.1 b hb hroom] at hover
      cases hover
    · exact hno.2 b hb hroom hhotel hlive

/-- Booking requests only, and what they have read is bookable. -/
def OnlyBookings (y : System) : Prop :=
  ∀ i, match y.tasks i with
    | .creating _ _ | .done => True
    | .quoted row => Bookable y.store row
    | _ => False

/-- When a task inserts, its room still passes the availability test, and no live
booking that carries another hotel's id has a night of the stay in the room. -/
def StillAvailable (y : System) (e : Event) : Prop :=
  ∀ row r, y.tasks e.task = .quoted row → createBooking y.store e.env.now row = .ok r →
    isAvailable y.store row.hotelId row.roomId row.checkIn row.checkOut = true ∧
    ∀ b ∈ y.store.bookings.rows, b.roomId = row.roomId → b.hotelId ≠ row.hotelId → b.Live →
      Disjoint b.stay (Set.Ico row.checkIn row.checkOut)

theorem bookable_insert {s : Store} {row new : BookingData} {now : ℤ} {r : Booking × Store}
    (h : Bookable s row) (hnew : new.checkIn < new.checkOut)
    (hr : createBooking s now new = .ok r) : Bookable r.2 row := by
  obtain ⟨price, _, _, rfl⟩ := createBooking_eq_ok.mp hr
  refine ⟨h.room, h.dates, fun b hb hroom hover => ?_⟩
  rcases (Table.mem_insert _).mp hb with hb | rfl
  · exact h.nights b hb hroom hover
  · exact hnew

/-- What `OnlyBookings` asks of one task. -/
def Task.Books (s : Store) : Task → Prop
  | .creating _ _ | .done => True
  | .quoted row => Bookable s row
  | _ => False

theorem onlyBookings_iff {y : System} : OnlyBookings y ↔ ∀ i, (y.tasks i).Books y.store := Iff.rfl

theorem books_taskStep (env : Env) {s : Store} {t : Task} (h : t.Books s) :
    (taskStep env s t).1.Books (taskStep env s t).2 := by
  cases t with
  | creating token data =>
    cases hread : createBookingRead s token data with
    | error err => simp only [taskStep, hread, Task.Books]
    | ok row =>
      simp only [taskStep, hread]
      exact bookable_of_read hread
  | quoted row => trivial
  | done => trivial
  | _ => exact h.elim

theorem bookable_taskStep (env : Env) {s : Store} {t : Task} (h : t.Books s) {row : BookingData}
    (hrow : Bookable s row) : Bookable (taskStep env s t).2 row := by
  cases t with
  | creating token data =>
    cases hread : createBookingRead s token data with
    | error err =>
      simp only [taskStep, hread]
      exact hrow
    | ok row =>
      simp only [taskStep, hread]
      exact hrow
  | quoted new =>
    simp only [taskStep]
    cases hr : createBooking s env.now new with
    | error err => exact hrow
    | ok r => exact bookable_insert hrow (show Bookable s new from h).dates hr
  | done => exact hrow
  | _ => exact h.elim

theorem Task.Books.mono {s s' : Store} {t : Task} (h : t.Books s)
    (hkeep : ∀ row, Bookable s row → Bookable s' row) : t.Books s' := by
  cases t with
  | quoted row => exact hkeep row h
  | _ => exact h

theorem onlyBookings_step (y : System) (e : Event) (h : OnlyBookings y) :
    OnlyBookings (sysStep y e) := by
  rw [onlyBookings_iff] at h ⊢
  intro i
  unfold sysStep
  by_cases hi : i = e.task
  · subst hi
    simp only [Function.update_self]
    exact books_taskStep e.env (h e.task)
  · simp only [Function.update_of_ne hi]
    exact (h i).mono fun row hrow => bookable_taskStep e.env (h e.task) hrow

theorem noDoubleBooking_sysStep_iff (y : System) (e : Event) (h : OnlyBookings y) :
    NoDoubleBooking (sysStep y e).store.bookings ↔
      NoDoubleBooking y.store.bookings ∧ StillAvailable y e := by
  have htask := h e.task
  unfold sysStep StillAvailable
  cases ht : y.tasks e.task with
  | creating token data =>
    cases hread : createBookingRead y.store token data with
    | error err => simp [taskStep, hread]
    | ok row => simp [taskStep, hread]
  | done => simp [taskStep]
  | quoted row =>
    rw [ht] at htask
    simp only [taskStep]
    cases hr : createBooking y.store e.env.now row with
    | error err =>
      refine (and_iff_left ?_).symm
      intro row' r' hrow hr'
      cases hrow
      rw [hr] at hr'
      cases hr'
    | ok r =>
      obtain ⟨price, _, _, rfl⟩ := createBooking_eq_ok.mp hr
      have hlive := row.row_live e.env.now price y.store.bookings.next
      refine (noDoubleBooking_insert_iff rfl hlive).trans (and_congr_right fun _ => ?_)
      refine (roomFree_iff_of_bookable htask).trans ?_
      constructor
      · intro hfree row' r' hrow _
        cases hrow
        exact hfree
      · exact fun hall => hall row _ rfl hr
  | _ =>
    rw [ht] at htask
    exact htask.elim

/-- Interleaved booking requests double-book exactly when one of them inserts
although its room is no longer available. -/
theorem interleaved_disjoint_iff (s : Store) (h : NoDoubleBooking s.bookings)
    (requests : ℕ → Bearer × BookingCreate) (es : List Event) :
    NoDoubleBooking (run sysStep (bookingRequests s requests) es).store.bookings ↔
      Along sysStep StillAvailable (bookingRequests s requests) es := by
  have hstart : OnlyBookings (bookingRequests s requests) := fun i => trivial
  have hback : ∀ y e, OnlyBookings y → NoDoubleBooking (sysStep y e).store.bookings →
      NoDoubleBooking y.store.bookings :=
    fun y e hy hd => ((noDoubleBooking_sysStep_iff y e hy).mp hd).1
  have hstep : ∀ y e, OnlyBookings y → True → NoDoubleBooking y.store.bookings →
      (NoDoubleBooking (sysStep y e).store.bookings ↔ StillAvailable y e) :=
    fun y e hy _ hd => (noDoubleBooking_sysStep_iff y e hy).trans (and_iff_right hd)
  exact (run_iff_always hback onlyBookings_step hstart).trans
    (always_iff_along onlyBookings_step hstep (along_of_forall fun _ _ _ => trivial) hstart h)

def raceRequests (i : ℕ) : Bearer × BookingCreate := (some (i + 1), sampleStay)

def takeTurns (turns : List ℕ) : List Event := turns.map fun i => ⟨i, sampleEnv "txn_1"⟩

theorem interleaved_disjoint_iff_sample : NoDoubleBooking sampleStore.bookings ∧
    (NoDoubleBooking
        (run sysStep (bookingRequests sampleStore raceRequests)
          (takeTurns [0, 0, 1, 1])).store.bookings ↔
      Along sysStep StillAvailable (bookingRequests sampleStore raceRequests)
        (takeTurns [0, 0, 1, 1])) :=
  ⟨by decide +kernel, interleaved_disjoint_iff sampleStore (by decide +kernel) raceRequests _⟩

theorem interleaved_reads_sell_twice : NoDoubleBooking sampleStore.bookings ∧
    ¬NoDoubleBooking
      (run sysStep (bookingRequests sampleStore raceRequests)
        (takeTurns [0, 1, 0, 1])).store.bookings := by
  decide +kernel

/-! ### A payment against a cancellation -/

def HasStatus (s : Store) (bookingId : ℤ) (status : BookingStatus) : Prop :=
  ∃ b, s.bookings.get bookingId = some b ∧ b.status = status

instance (s : Store) (bookingId : ℤ) (status : BookingStatus) :
    Decidable (HasStatus s bookingId status) :=
  decidable_of_iff ((s.bookings.get bookingId).map Booking.status = some status)
    Option.map_eq_some_iff

theorem HasStatus.unique {s : Store} {id : ℤ} {st st' : BookingStatus} (h : HasStatus s id st)
    (h' : HasStatus s id st') : st = st' := by
  obtain ⟨b, hb, rfl⟩ := h
  obtain ⟨b', hb', rfl⟩ := h'
  rw [Option.some.inj (hb.symm.trans hb')]

theorem HasStatus.congr {s s' : Store} {id : ℤ} {st : BookingStatus} (h : HasStatus s id st)
    (hs : s'.bookings = s.bookings) : HasStatus s' id st := by
  unfold HasStatus
  rw [hs]
  exact h

theorem hasStatus_setStatus_self {s : Store} {id : ℤ} {st st' : BookingStatus}
    (h : HasStatus s id st) : HasStatus (setStatus s id st') id st' := by
  obtain ⟨b, hb, _⟩ := h
  refine ⟨{ b with status := st' }, (Table.get_eq_some _).mpr ⟨?_, ?_⟩, rfl⟩
  · exact (mem_setStatus hb).mpr (Or.inl rfl)
  · exact ((Table.get_eq_some _).mp hb).2

theorem hasStatus_setStatus_of_ne {s : Store} {id i : ℤ} {st st' : BookingStatus}
    (hne : i ≠ id) (h : HasStatus s i st) : HasStatus (setStatus s id st') i st := by
  obtain ⟨b, hb, hst⟩ := h
  refine ⟨b, ?_, hst⟩
  unfold setStatus
  rw [Table.get_update, hb, Option.map_some, if_neg hne]

/-- A payment about to write `confirmed` finds its booking not cancelled. -/
def ConfirmsUncancelled (y : System) (e : Event) : Prop :=
  ∀ c, y.tasks e.task = .paying c .settled → ¬HasStatus y.store c.bookingId .cancelled

theorem committed_confirm {s : Store} {id : ℤ} {st : BookingStatus} (h : HasStatus s id st) :
    committed s (confirmBooking s id) = setStatus s id .confirmed := by
  obtain ⟨b, hb, _⟩ := h
  unfold confirmBooking
  rw [hb]
  rfl

theorem taskStep_keeps_cancelled (env : Env) (s : Store) (task : Task) (i : ℤ)
    (hP : ∀ c, task = .paying c .settled → ¬HasStatus s c.bookingId .cancelled)
    (hC : HasStatus s i .cancelled) : HasStatus (taskStep env s task).2 i .cancelled := by
  cases task with
  | creating token data =>
    unfold taskStep
    simp only
    split <;> exact hC
  | quoted row =>
    show HasStatus (committed s (createBooking s env.now row)) i .cancelled
    cases hr : createBooking s env.now row with
    | error e => exact hC
    | ok r =>
      obtain ⟨price, _, _, rfl⟩ := createBooking_eq_ok.mp hr
      obtain ⟨b, hb, hst⟩ := hC
      exact ⟨b, Table.get_insert_of_get _ hb, hst⟩
  | paying c phase =>
    by_cases hphase : phase = .settled
    · subst hphase
      have hne : i ≠ c.bookingId := fun hi => hP c rfl (hi ▸ hC)
      unfold taskStep
      simp only [payStep_settled]
      cases hr : confirmBooking s c.bookingId with
      | error e => exact hC
      | ok r =>
        simp only [confirmBooking, bind_eq_ok, pure_eq_ok] at hr
        obtain ⟨_, _, rfl⟩ := hr
        exact hasStatus_setStatus_of_ne hne hC
    · exact hC.congr (payStep_writes hphase .bookings (by decide))
  | cancelling token bookingId =>
    unfold taskStep
    simp only
    split <;> exact hC
  | owned bookingId loaded =>
    unfold taskStep
    simp only
    split
    · exact hC
    · by_cases hi : i = bookingId
      · subst hi
        exact hasStatus_setStatus_self hC
      · exact hasStatus_setStatus_of_ne hi hC
  | done => exact hC

/-- A booking once seen cancelled is never confirmed later exactly when every
payment confirms a booking that is not cancelled at that moment. -/
theorem cancelled_never_confirmed_iff (y : System) (es : List Event) :
    (∀ id, NeverAfter sysStep (fun y => HasStatus y.store id .cancelled)
      (fun y => HasStatus y.store id .confirmed) y es) ↔
      Along sysStep ConfirmsUncancelled y es := by
  refine neverAfter_iff_along ?_ ?_ ?_
  · intro i y hc hd
    cases hc.unique hd
  · intro i y e hP hC
    exact taskStep_keeps_cancelled e.env y.store (y.tasks e.task) i hP hC
  · intro y e hP
    simp only [ConfirmsUncancelled, not_forall, not_not] at hP
    obtain ⟨c, htask, hC⟩ := hP
    refine ⟨c.bookingId, hC, ?_⟩
    unfold sysStep
    simp only [htask, taskStep, payStep_settled, committed_confirm hC]
    exact hasStatus_setStatus_self hC

/-- The guest pays booking 1 from one device and cancels it from another. -/
def payVsCancel : System where
  store := bookedStore
  tasks := fun i =>
    if i = 0 then .paying ⟨1, 1, 200, "card", "USD"⟩ .start else .cancelling (some 1) 1

/-- The cancellation is committed between the charge and the last commit. -/
theorem payment_confirms_cancelled :
    ¬NeverAfter sysStep (fun y => HasStatus y.store 1 .cancelled)
      (fun y => HasStatus y.store 1 .confirmed) payVsCancel (takeTurns [0, 0, 0, 0, 1, 1, 0]) := by
  intro h
  refine h (takeTurns [0, 0, 0, 0, 1, 1]) (takeTurns [0]) [] rfl ?_ ?_
  · decide +kernel
  · decide +kernel

end HotelMs
