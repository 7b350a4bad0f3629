import HotelMs.Frame

/-!
# The checkout page (`pages/public/Booking.jsx`)

`handleConfirm` books, then pays: two requests over a network that can lose a
request or its answer.
-/

namespace HotelMs

open Tables

/-! ### The form -/

/-- The state the handler reads. An unset date is the empty string. -/
structure CheckoutForm where
  roomId : ℤ
  checkIn : String
  checkOut : String
  cardNumber : String
  expiry : String
  cvv : String

/-- `\s` of a JavaScript pattern. -/
def jsSpace (c : Char) : Bool :=
  c.toNat ∈ [0x20, 0xa0, 0x1680, 0x2028, 0x2029, 0x202f, 0x205f, 0x3000, 0xfeff] ||
    (0x09 ≤ c.toNat && c.toNat ≤ 0x0d) || (0x2000 ≤ c.toNat && c.toNat ≤ 0x200a)

/-- `length` of a JavaScript string, in UTF-16 units. -/
def jsLength (text : List Char) : ℕ :=
  (text.map fun c => if c.toNat < 0x10000 then 1 else 2).sum

def digit? (c : Char) : Option ℕ :=
  if '0' ≤ c ∧ c ≤ '9' then some (c.toNat - '0'.toNat) else none

/-- `MM/YY`, the two numbers of a text that matches `/^\d{2}\/\d{2}$/`. -/
def expiryDate? (expiry : String) : Option (ℕ × ℕ) :=
  match expiry.toList with
  | [m₁, m₂, '/', y₁, y₂] => do
    let m₁ ← digit? m₁
    let m₂ ← digit? m₂
    let y₁ ← digit? y₁
    let y₂ ← digit? y₂
    return (10 * m₁ + m₂, 10 * y₁ + y₂)
  | _ => none

/-- `thisMonth` is the browser's clock, in months since the year 0. -/
def validatePayment (thisMonth : ℕ) (form : CheckoutForm) : Option String :=
  let digits := jsLength (form.cardNumber.toList.filter fun c => !jsSpace c)
  if digits < 13 ∨ 19 < digits then some "Please enter a valid card number."
  else
    match expiryDate? form.expiry with
    | none => some "Expiry must be in MM/YY format."
    | some (mm, yy) =>
      if mm < 1 ∨ 12 < mm ∨ 12 * (2000 + yy) + (mm - 1) < thisMonth then
        some "Card has expired or expiry is invalid."
      else if jsLength form.cvv.toList < 3 then some "CVV must be 3 or 4 digits."
      else none

/-! ### Requests and answers -/

/-- The body of an error answer: `detail` from an `HTTPException`, `error` from
the handlers of `exceptions/handlers.py`. -/
structure ErrorBody where
  detail : Option String
  error : Option String

def Error.body : Error → ErrorBody
  | .http _ detail => ⟨some detail, none⟩
  | .integrity => ⟨none, some "A record with the provided data already exists"⟩
  | .payment _ => ⟨none, some "An unexpected error occurred. Please try again later."⟩
  | .data => ⟨none, some "An unexpected error occurred. Please try again later."⟩

def validationFailed : ErrorBody := ⟨none, some "Validation failed"⟩

/-- `ERR_NETWORK`, or another code such as that of a timeout. -/
inductive NetworkError
  | network
  | other

/-- What becomes of a request: it never reaches the server, it is refused ahead
of the endpoint (the rate limit), it is answered, or it is served and the answer
is lost. -/
inductive Exchange
  | lost (code : NetworkError)
  | refused (body : ErrorBody)
  | answered (env : Env)
  | unanswered (env : Env) (code : NetworkError)

def Exchange.served : Exchange → Option Env
  | .lost _ => none
  | .refused _ => none
  | .answered env => some env
  | .unanswered env _ => some env

inductive RequestError
  | response (body : ErrorBody)
  | network (code : NetworkError)

def post {α : Type} (d : Exchange) (s : Store) (endpoint : Env → Except ErrorBody α × Store) :
    Except RequestError α × Store :=
  match d with
  | .lost code => (.error (.network code), s)
  | .refused body => (.error (.response body), s)
  | .answered env => ((endpoint env).1.mapError .response, (endpoint env).2)
  | .unanswered env code => (.error (.network code), (endpoint env).2)

/-- `a || b` on texts: the empty text counts as absent. -/
def truthy (text : Option String) : Option String := text.filter (· ≠ "")

def RequestError.message : RequestError → String
  | .response body =>
    ((truthy body.detail).or (truthy body.error)).getD "Booking failed. Please try again."
  | .network .network => "Cannot reach the server. Check your connection."
  | .network .other => "Booking failed. Please try again."

/-! ### The handler -/

section

variable (isoDate : String → Option ℤ) (token : Bearer) (form : CheckoutForm)

/-- The body of `POST /user/bookings/`; `isoDate` reads a date field. -/
def CheckoutForm.bookingCreate : Option BookingCreate := do
  let checkIn ← isoDate form.checkIn
  let checkOut ← isoDate form.checkOut
  if h : checkIn < checkOut then return ⟨checkIn, checkOut, form.roomId, h⟩ else none

def bookingEndpoint (s : Store) (env : Env) : Except ErrorBody Booking × Store :=
  match form.bookingCreate isoDate with
  | none => (.error validationFailed, s)
  | some data =>
    match createBookingEndpoint env s token data with
    | .error e => (.error e.body, s)
    | .ok (booking, s') => (.ok booking, s')

def paymentRequest (booking : Booking) : PaymentRequest where
  bookingId := booking.id
  amount := booking.totalPrice
  method := "card"
  currency := "USD"

def paymentEndpoint (booking : Booking) (s : Store) (env : Env) :
    Except ErrorBody Payment × Store :=
  let r := makePayment env s token (paymentRequest booking)
  (r.1.mapError Error.body, r.2)

/-- Where the page ends up: the error banner, or the confirmation page. -/
inductive Screen
  | error (message : String)
  | confirmation (bookingId : ℤ)
  deriving DecidableEq

/-- The two deliveries are those of the booking and of the payment. -/
def handleConfirm (thisMonth : ℕ) (d₁ d₂ : Exchange) (s : Store) : Screen × Store :=
  if form.checkIn = "" ∨ form.checkOut = "" then
    (.error "Please select check-in and check-out dates.", s)
  else
    match validatePayment thisMonth form with
    | some payErr => (.error payErr, s)
    | none =>
      match post d₁ s (bookingEndpoint isoDate token form s) with
      | (.error e, s₁) => (.error e.message, s₁)
      | (.ok booking, s₁) =>
        match post d₂ s₁ (paymentEndpoint token booking s₁) with
        | (.error e, s₂) => (.error e.message, s₂)
        | (.ok _, s₂) => (.confirmation booking.id, s₂)

/-- The server was asked to pay, and the gateway took the money. -/
def Charged (booking : Booking) (s : Store) (d : Exchange) : Prop :=
  ∃ env, d.served = some env ∧ ∃ user amount currency, getCurrentUser s token = .ok user ∧
    (env.gateway ((paymentRequest booking).call user).charge).isSome = true ∧
      Accepted s ((paymentRequest booking).call user) amount currency

/-- A run of the handler in which the booking succeeds and the payment then
fails without charging. -/
structure HalfDone (thisMonth : ℕ) (d₁ d₂ : Exchange) (s : Store) (booking : Booking)
    (s₁ s₂ : Store) : Prop where
  dated : ¬(form.checkIn = "" ∨ form.checkOut = "")
  valid : validatePayment thisMonth form = none
  booked : post d₁ s (bookingEndpoint isoDate token form s) = (.ok booking, s₁)
  failed : ∃ e, post d₂ s₁ (paymentEndpoint token booking s₁) = (.error e, s₂)
  uncharged : ¬Charged token booking s₁ d₂

/-- The page is at the confirmation of a booking for this room and stay that is
confirmed and paid. -/
def CheckedOut (r : Screen × Store) : Prop :=
  ∃ b ∈ r.2.bookings.rows, r.1 = .confirmation b.id ∧ b.roomId = form.roomId ∧
    isoDate form.checkIn = some b.checkIn ∧ isoDate form.checkOut = some b.checkOut ∧
    b.status = .confirmed ∧ ∃ p ∈ r.2.payments.rows, p.bookingId = b.id ∧ p.status = .succeeded

end

/-! ### One request -/

theorem post_eq_ok {α : Type} {d : Exchange} {s s' : Store}
    {endpoint : Env → Except ErrorBody α × Store} {a : α} :
    post d s endpoint = (.ok a, s') ↔ ∃ env, d = .answered env ∧ endpoint env = (.ok a, s') := by
  cases d with
  | lost code => simp [post]
  | refused body => simp [post]
  | unanswered env code => simp [post]
  | answered env =>
    cases h : endpoint env with
    | mk result after => cases result <;> simp [post, h, Except.mapError]

theorem post_store {α : Type} (d : Exchange) (s : Store)
    (endpoint : Env → Except ErrorBody α × Store) :
    (post d s endpoint).2 = s ∨
      ∃ env, d.served = some env ∧ (post d s endpoint).2 = (endpoint env).2 := by
  cases d with
  | lost code => exact Or.inl rfl
  | refused body => exact Or.inl rfl
  | answered env => exact Or.inr ⟨env, rfl, rfl⟩
  | unanswered env code => exact Or.inr ⟨env, rfl, rfl⟩

theorem CheckoutForm.bookingCreate_eq_some {isoDate : String → Option ℤ} {form : CheckoutForm}
    {data : BookingCreate} :
    form.bookingCreate isoDate = some data ↔ data.roomId = form.roomId ∧
      isoDate form.checkIn = some data.checkIn ∧ isoDate form.checkOut = some data.checkOut := by
  unfold CheckoutForm.bookingCreate
  cases hin : isoDate form.checkIn with
  | none => simp
  | some checkIn =>
    cases hout : isoDate form.checkOut with
    | none => simp
    | some checkOut =>
      obtain ⟨dataIn, dataOut, room, hlt⟩ := data
      by_cases h : checkIn < checkOut
      · simp [h, and_comm, and_assoc, eq_comm]
      · simp only [Option.bind_eq_bind, Option.bind_some, h, ↓reduceDIte, reduceCtorEq,
          Option.some.injEq, false_iff, not_and]
        intro _ hi ho
        omega

theorem bookingEndpoint_eq_ok {isoDate : String → Option ℤ} {token : Bearer}
    {form : CheckoutForm} {s s' : Store} {env : Env} {b : Booking} :
    bookingEndpoint isoDate token form s env = (.ok b, s') ↔
      ∃ data, form.bookingCreate isoDate = some data ∧
        createBookingEndpoint env s token data = .ok (b, s') := by
  unfold bookingEndpoint
  cases form.bookingCreate isoDate with
  | none => simp
  | some data =>
    cases h : createBookingEndpoint env s token data with
    | error e => simp [h]
    | ok r => simp [h, Prod.ext_iff]

/-- The parts of the store that a failed payment leaves alone. -/
structure Unpaid (s s' : Store) : Prop where
  bookings : s'.bookings = s.bookings
  rooms : s'.rooms = s.rooms
  users : s'.users = s.users
  payments : ∀ p ∈ s'.payments.rows, p.status = .succeeded → p ∈ s.payments.rows

theorem Unpaid.refl (s : Store) : Unpaid s s := ⟨rfl, rfl, rfl, fun _ hp _ => hp⟩

theorem processPayment_unpaid {env : Env} {s : Store} {c : PaymentCall}
    (h : (env.gateway c.charge).isSome = true → ∀ amount currency, ¬Accepted s c amount currency) :
    Unpaid s (processPayment env s c).2 := by
  have houtcome := processPayment_outcome env s c
  generalize (processPayment env s c).2 = s' at houtcome ⊢
  cases houtcome with
  | refused _ => exact .refl s
  | unpaid haccepted hstatus _ =>
    refine ⟨rfl, rfl, rfl, fun p hp hsucceeded => ?_⟩
    rcases mem_addPayment.mp hp with hold | rfl
    · exact hold
    · exact absurd hsucceeded hstatus
  | paid haccepted hgate _ =>
    have hgateway : (env.gateway c.charge).isSome = true := by rw [hgate]; rfl
    exact absurd haccepted (h hgateway _ _)

theorem processPayment_gateway_down {env : Env} (henv : ∀ charge, env.gateway charge = none)
    (s : Store) (c : PaymentCall) : ∃ e, (processPayment env s c).1 = .error e := by
  cases h : (processPayment env s c).1 with
  | error e => exact ⟨e, rfl⟩
  | ok b =>
    obtain ⟨_, _, t, _, hg, _⟩ := processPayment_eq_ok h
    rw [henv] at hg
    cases hg

theorem makePayment_gateway_down {env : Env} (henv : ∀ charge, env.gateway charge = none)
    (s : Store) (token : Bearer) (data : PaymentRequest) :
    ∃ e, (makePayment env s token data).1 = .error e := by
  unfold makePayment
  cases getCurrentUser s token with
  | error e => exact ⟨e, rfl⟩
  | ok user =>
    obtain ⟨e, he⟩ := processPayment_gateway_down henv s (data.call user)
    cases h : processPayment env s (data.call user) with
    | mk result after =>
      rw [h] at he
      subst he
      cases e with
      | payment message => exact ⟨.http 400 message, by simp only [h]⟩
      | http status detail => exact ⟨.http status detail, by simp only [h]⟩
      | integrity => exact ⟨.integrity, by simp only [h]⟩
      | data => exact ⟨.data, by simp only [h]⟩

/-! ### The two requests and their repetition -/

section

variable {isoDate : String → Option ℤ} {token : Bearer} {form : CheckoutForm} {thisMonth : ℕ}
  {d₁ d₂ : Exchange} {s s₁ s₂ : Store} {booking : Booking}

theorem HalfDone.unpaid (h : HalfDone isoDate token form thisMonth d₁ d₂ s booking s₁ s₂) :
    Unpaid s₁ s₂ := by
  obtain ⟨e, hfailed⟩ := h.failed
  have hs₂ : (post d₂ s₁ (paymentEndpoint token booking s₁)).2 = s₂ := by rw [hfailed]
  rcases post_store d₂ s₁ (paymentEndpoint token booking s₁) with hsame | ⟨env, hserved, hstore⟩
  · rw [← hs₂, hsame]
    exact .refl s₁
  · have hpaid : s₂ = (makePayment env s₁ token (paymentRequest booking)).2 := by
      rw [← hs₂, hstore]
      rfl
    rcases makePayment_cases env s₁ token (paymentRequest booking) with hsame | ⟨user, huser, hpay⟩
    · rw [hpaid, hsame]
      exact .refl s₁
    · rw [hpaid, hpay]
      refine processPayment_unpaid fun hgateway amount currency haccepted => h.uncharged ?_
      exact ⟨env, hserved, user, amount, currency, huser, hgateway, haccepted⟩

theorem HalfDone.row (h : HalfDone isoDate token form thisMonth d₁ d₂ s booking s₁ s₂) :
    ∃ data user room, form.bookingCreate isoDate = some data ∧
      getCurrentUser s token = .ok user ∧ s.rooms.get data.roomId = some room ∧
      booking.hotelId = room.hotelId ∧ booking.roomId = data.roomId ∧
      booking.checkIn = data.checkIn ∧ booking.checkOut = data.checkOut ∧
      booking.status = .pending ∧
      s₁ = { s with bookings := s.bookings.insert booking } ∧ booking ∈ s₁.bookings.rows := by
  obtain ⟨env, _, hendpoint⟩ := post_eq_ok.mp h.booked
  obtain ⟨data, hdata, hcreate⟩ := bookingEndpoint_eq_ok.mp hendpoint
  obtain ⟨user, room, price, d, huser, hroom, _, rfl, _, _, hrow⟩ :=
    createBookingEndpoint_eq_ok.mp hcreate
  cases hrow
  exact ⟨data, user, room, hdata, huser, hroom, rfl, rfl, rfl, rfl, rfl, rfl,
    (Table.mem_insert _).mpr (Or.inr rfl)⟩

theorem HalfDone.rebooking (h : HalfDone isoDate token form thisMonth d₁ d₂ s booking s₁ s₂)
    (env : Env) :
    bookingEndpoint isoDate token form s₂ env =
      (.error (Error.body (.http 400 "Room is not available for the selected dates")), s₂) := by
  obtain ⟨data, user, room, hdata, huser, hroom, hhotel, hid, hin, hout, hstatus, rfl, hnew⟩ :=
    h.row
  have hunpaid := h.unpaid
  have hmem : booking ∈ s₂.bookings.rows := by
    rw [hunpaid.bookings]
    exact hnew
  have htaken : ¬isAvailable s₂ room.hotelId data.roomId data.checkIn data.checkOut = true := by
    intro havailable
    have hfree := not_overlapping_of_isAvailable havailable hmem hid
    have hlive : booking.Live := by
      rw [Booking.Live, hstatus]
      decide
    have hlt := data.validate_date_range
    rw [overlapping_eq_true.mpr ⟨hhotel, hlive, by omega, by omega⟩] at hfree
    cases hfree
  have huser₂ : getCurrentUser s₂ token = .ok user := by
    unfold getCurrentUser at huser ⊢
    rw [hunpaid.users]
    exact huser
  have hroom₂ : s₂.rooms.get data.roomId = some room := by
    rw [hunpaid.rooms]
    exact hroom
  have hread : createBookingRead s₂ token data =
      .error (.http 400 "Room is not available for the selected dates") := by
    unfold createBookingRead
    rw [huser₂, hroom₂]
    simp only [bind, Except.bind, found, ensure, htaken, Bool.false_eq_true, if_false]
  have hrefused : createBookingEndpoint env s₂ token data =
      .error (.http 400 "Room is not available for the selected dates") := by
    unfold createBookingEndpoint
    rw [hread]
    rfl
  unfold bookingEndpoint
  simp only [hdata, hrefused]

/-- Whatever the gateway now does, the second try ends at the first one's own
booking, which stays pending. -/
theorem retry_refused (h : HalfDone isoDate token form thisMonth d₁ d₂ s booking s₁ s₂)
    (later : ℕ) (env₁ env₂ : Env) :
    handleConfirm isoDate token form later (.answered env₁) (.answered env₂) s₂ =
        (.error ((validatePayment later form).getD "Room is not available for the selected dates"),
          s₂) ∧
      ¬CheckedOut isoDate form
        (handleConfirm isoDate token form later (.answered env₁) (.answered env₂) s₂) ∧
      booking ∈ s₂.bookings.rows ∧ booking.status = .pending ∧
      ∀ p ∈ s₂.payments.rows, p.status = .succeeded → p ∈ s.payments.rows := by
  obtain ⟨data, user, room, _, _, _, _, _, _, _, hstatus, hs₁, hnew⟩ := h.row
  have hretry : handleConfirm isoDate token form later (.answered env₁) (.answered env₂) s₂ =
      (.error ((validatePayment later form).getD "Room is not available for the selected dates"),
        s₂) := by
    unfold handleConfirm
    rw [if_neg h.dated]
    cases validatePayment later form with
    | some payErr => rfl
    | none =>
      simp only [post, h.rebooking env₁]
      rfl
  refine ⟨hretry, ?_, ?_, hstatus, ?_⟩
  · intro hdone
    obtain ⟨b, _, hscreen, _⟩ := hdone
    rw [hretry] at hscreen
    cases hscreen
  · rw [h.unpaid.bookings]
    exact hnew
  · intro p hp hsucceeded
    have hold := h.unpaid.payments p hp hsucceeded
    rw [hs₁] at hold
    exact hold

end

/-! ### A gateway that is down once -/

def sampleIsoDate (text : String) : Option ℤ :=
  if text = "2026-01-10" then some 739626
  else if text = "2026-01-12" then some 739628
  else none

def sampleForm : CheckoutForm where
  roomId := 1
  checkIn := "2026-01-10"
  checkOut := "2026-01-12"
  cardNumber := "4242 4242 4242 4242"
  expiry := "12/30"
  cvv := "123"

def sampleRequest : BookingCreate := ⟨739626, 739628, 1, by decide⟩

def downEnv : Env := { sampleEnv "" with gateway := fun _ => none }

/-- The row that the first try leaves. -/
def heldBooking : Booking := ⟨1, 1, 1, 1, 739626, 739628, 1, 0, none, 200, .pending, 0⟩

def heldStore : Store := { sampleStore with bookings := sampleStore.bookings.insert heldBooking }

def sampleCheckout (d₁ d₂ : Exchange) (s : Store) : Screen × Store :=
  handleConfirm sampleIsoDate (some 1) sampleForm 24312 d₁ d₂ s

theorem sample_books :
    createBookingEndpoint downEnv sampleStore (some 1) sampleRequest =
      .ok (heldBooking, heldStore) := by
  have hread : createBookingRead sampleStore (some 1) sampleRequest =
      .ok ⟨1, 1, 1, 739626, 739628, 200⟩ := by
    refine createBookingRead_eq_ok.mpr ⟨{ sampleUser .guest "a@x.org" none with id := 1 },
      ⟨1, 1, 1, none, none, some 100, none, true⟩, rfl, rfl, ?_, ?_⟩
    · decide +kernel
    · decide +kernel
  unfold createBookingEndpoint
  rw [hread]
  exact createBooking_eq_ok.mpr ⟨200, by decide +kernel, by decide +kernel, rfl⟩

def declinedStore : Store :=
  (makePayment downEnv heldStore (some 1) (paymentRequest heldBooking)).2

theorem sample_halfDone :
    HalfDone sampleIsoDate (some 1) sampleForm 24312 (.answered downEnv) (.answered downEnv)
      sampleStore heldBooking heldStore declinedStore := by
  have hbooked : bookingEndpoint sampleIsoDate (some 1) sampleForm sampleStore downEnv =
      (.ok heldBooking, heldStore) :=
    bookingEndpoint_eq_ok.mpr
      ⟨sampleRequest, CheckoutForm.bookingCreate_eq_some.mpr (by decide +kernel), sample_books⟩
  have hdown : ∀ charge, downEnv.gateway charge = none := fun _ => rfl
  obtain ⟨e, he⟩ := makePayment_gateway_down hdown heldStore (some 1) (paymentRequest heldBooking)
  refine ⟨by decide +kernel, by decide +kernel, post_eq_ok.mpr ⟨downEnv, rfl, hbooked⟩, ?_, ?_⟩
  · refine ⟨.response e.body, ?_⟩
    simp only [post, paymentEndpoint, he, Except.mapError, declinedStore]
  · intro hcharged
    obtain ⟨env, henv, _, _, _, _, hgateway, _⟩ := hcharged
    cases henv
    cases hgateway

theorem retry_of_declined :
    HalfDone sampleIsoDate (some 1) sampleForm 24312 (.answered downEnv) (.answered downEnv)
      sampleStore heldBooking heldStore declinedStore ∧
    ¬CheckedOut sampleIsoDate sampleForm (sampleCheckout (.answered (sampleEnv "txn_1"))
      (.answered (sampleEnv "txn_1")) declinedStore) := by
  refine ⟨sample_halfDone, fun hdone => ?_⟩
  obtain ⟨b, _, hscreen, _⟩ := hdone
  have hrefused : (sampleCheckout (.answered (sampleEnv "txn_1")) (.answered (sampleEnv "txn_1"))
      declinedStore).1 = .error "Room is not available for the selected dates" := by
    decide +kernel
  rw [hrefused] at hscreen
  cases hscreen

theorem retry_refused_declined :
    HalfDone sampleIsoDate (some 1) sampleForm 24312 (.answered downEnv) (.answered downEnv)
      sampleStore heldBooking heldStore declinedStore ∧
    ¬CheckedOut sampleIsoDate sampleForm (handleConfirm sampleIsoDate (some 1) sampleForm 24313
      (.answered (sampleEnv "txn_1")) (.answered (sampleEnv "txn_1")) declinedStore) :=
  ⟨sample_halfDone, (retry_refused sample_halfDone 24313 (sampleEnv "txn_1")
    (sampleEnv "txn_1")).2.1⟩

end HotelMs
