import HotelMs.Bookings

/-!
# Payments

`services/payment.py`, `repositories/payment_repository.py` and
`api/v1/user/payments.py`. The gateway is in the environment: for a charge the
transaction id it returns, or `none` when the call raises.
-/

namespace HotelMs

open Tables SqlTypes

/-! ### Repository -/

def paymentMethods : List String := ["card", "cash", "bank_transfer", "wallet"]

structure PaymentCall where
  bookingId : ℤ
  userId : ℤ
  amount : ℚ
  method : String
  currency : String
  deriving DecidableEq

def PaymentCall.charge (c : PaymentCall) : Charge := ⟨c.amount, c.currency, c.method⟩

def paymentRow (c : PaymentCall) (now : ℤ) (amount : ℚ) (currency : String)
    (status : PaymentStatus) (transactionId : Option String) (id : ℤ) : Payment where
  id := id
  bookingId := c.bookingId
  userId := c.userId
  amount := amount
  currency := currency
  method := c.method
  status := status
  transactionId := transactionId
  createdAt := now

def addPayment (s : Store) (c : PaymentCall) (now : ℤ) (amount : ℚ) (currency : String)
    (status : PaymentStatus) (transactionId : Option String) : Store :=
  { s with payments :=
    s.payments.insert (paymentRow c now amount currency status transactionId s.payments.next) }

def createPayment (s : Store) (now : ℤ) (c : PaymentCall) : Except Error (Payment × Store) := do
  let amount ← found (numeric 10 2 c.amount) .data
  let currency ← found (varchar 3 c.currency) .data
  ensure (c.method ∈ paymentMethods ∧ (s.bookings.get c.bookingId).isSome ∧
    (s.users.get c.userId).isSome) .integrity
  return (paymentRow c now amount currency .pending none s.payments.next,
    addPayment s c now amount currency .pending none)

def getPaymentById (s : Store) (paymentId : ℤ) : Option Payment := s.payments.get paymentId

def getPaymentsForBooking (s : Store) (bookingId : ℤ) : List Payment :=
  s.payments.select fun p => p.bookingId = bookingId

/-- `if transaction_id:`, an empty one is not stored. -/
def storedId (transactionId : Option String) : Option String := transactionId.filter (· ≠ "")

def Payment.settle (status : PaymentStatus) (transactionId : Option String) (p : Payment) :
    Payment :=
  { p with status, transactionId := (storedId transactionId).or p.transactionId }

-- `transaction_id` is unique, and a missing payment is not an error here
@[grind =] def updatePaymentStatus (s : Store) (paymentId : ℤ) (status : PaymentStatus)
    (transactionId : Option String) : Except Error (Option Payment × Store) :=
  match getPaymentById s paymentId with
  | none => .ok (none, s)
  | some payment => do
    let settled := payment.settle status transactionId
    ensure (¬∃ p ∈ s.payments.rows, p.id ≠ paymentId ∧ p.transactionId.isSome ∧
      p.transactionId = settled.transactionId) .integrity
    return (some settled,
      { s with payments := s.payments.update paymentId (Payment.settle status transactionId) })

/-! ### Service -/

def paymentCheck (s : Store) (bookingId : ℤ) (amount : ℚ) : Except Error Booking := do
  ensure (0 < amount) (.payment "Payment amount must be positive")
  let booking ← found (s.bookings.get bookingId)
    (.payment ("Booking " ++ toString bookingId ++ " not found"))
  ensure (booking.status ≠ .cancelled ∧ booking.status ≠ .completed) (.payment
    ("Cannot pay for a booking with status '" ++ booking.status.toString ++ "'"))
  return booking

/-- `booking.status = "confirmed"` and the commit that writes it. The row was
expired by the commits before, so the `UPDATE` goes out whatever is stored. -/
def confirmBooking (s : Store) (bookingId : ℤ) : Except Error (Booking × Store) := do
  let booking ← found (s.bookings.get bookingId) .data
  return ({ booking with status := .confirmed }, setStatus s bookingId .confirmed)

def gatewayError : Error := .payment "Payment gateway error. Please try again."

def processPayment (env : Env) (s : Store) (c : PaymentCall) : Reply Booking :=
  match paymentCheck s c.bookingId c.amount with
  | .error e => (.error e, s)
  | .ok _ =>
    match createPayment s env.now c with
    | .error e => (.error e, s)
    | .ok (payment, s₁) =>
      match env.gateway c.charge with
      | none =>
        match updatePaymentStatus s₁ payment.id .failed none with
        | .error e => (.error e, s₁)
        | .ok (_, s₂) => (.error gatewayError, s₂)
      | some transactionId =>
        match updatePaymentStatus s₁ payment.id .succeeded (some transactionId) with
        | .error e => (.error e, s₁)
        | .ok (_, s₂) =>
          match confirmBooking s₂ c.bookingId with
          | .error e => (.error e, s₂)
          | .ok (booking, s₃) => (.ok booking, s₃)

/-! ### Endpoint -/

def PaymentRequest.call (data : PaymentRequest) (user : User) : PaymentCall :=
  ⟨data.bookingId, user.id, data.amount, data.method, data.currency⟩

def latestPayment : List Payment → Option Payment
  | [] => none
  | p :: ps => some (ps.foldl (fun best q => if best.id < q.id then q else best) p)

/-- The answer is the booking's latest payment, whoever made it. -/
def makePayment (env : Env) (s : Store) (token : Bearer) (data : PaymentRequest) : Reply Payment :=
  match getCurrentUser s token with
  | .error e => (.error e, s)
  | .ok user =>
    match processPayment env s (data.call user) with
    | (.error (.payment message), s') => (.error (.http 400 message), s')
    | (.error e, s') => (.error e, s')
    | (.ok _, s') => (found (latestPayment (getPaymentsForBooking s' data.bookingId)) .data, s')

/-! ### The service one database step at a time

Between two commits other sessions may commit too. A call waits in a phase and
each step does the work up to and including its next commit, or the gateway
call. -/

inductive PayPhase
  | start
  | checked
  | inserted (paymentId : ℤ)
  | charged (paymentId : ℤ) (transactionId : String)
  | declined (paymentId : ℤ)
  | settled
  | finished (result : Except Error Booking)

def orRaise {α : Type} (s : Store) (x : Except Error α) (next : α → PayPhase × Store) :
    PayPhase × Store :=
  match x with
  | .error e => (.finished (.error e), s)
  | .ok a => next a

@[grind =] def payStep (env : Env) (c : PaymentCall) (s : Store) : PayPhase → PayPhase × Store
  | .start => orRaise s (paymentCheck s c.bookingId c.amount) fun _ => (.checked, s)
  | .checked => orRaise s (createPayment s env.now c) fun r => (.inserted r.1.id, r.2)
  | .inserted paymentId =>
    match env.gateway c.charge with
    | none => (.declined paymentId, s)
    | some transactionId => (.charged paymentId transactionId, s)
  | .declined paymentId =>
    orRaise s (updatePaymentStatus s paymentId .failed none) fun r =>
      (.finished (.error gatewayError), r.2)
  | .charged paymentId transactionId =>
    orRaise s (updatePaymentStatus s paymentId .succeeded (some transactionId)) fun r =>
      (.settled, r.2)
  | .settled => orRaise s (confirmBooking s c.bookingId) fun r => (.finished (.ok r.1), r.2)
  | .finished result => (.finished result, s)

def payIter (env : Env) (c : PaymentCall) (x : PayPhase × Store) : PayPhase × Store :=
  payStep env c x.2 x.1

theorem payIter_finished (env : Env) (c : PaymentCall) (r : Except Error Booking) (s : Store)
    (n : ℕ) : (payIter env c)^[n] (.finished r, s) = (.finished r, s) := by
  induction n with
  | zero => rfl
  | succ n ih => exact ih

theorem payIter_orRaise {α : Type} (env : Env) (c : PaymentCall) (n : ℕ) (s : Store)
    (x : Except Error α) (next : α → PayPhase × Store) :
    (payIter env c)^[n] (orRaise s x next) =
      match x with
      | .error e => (.finished (.error e), s)
      | .ok a => (payIter env c)^[n] (next a) := by
  cases x with
  | error e => exact payIter_finished env c (.error e) s n
  | ok a => rfl

theorem payIter_declined (env : Env) (c : PaymentCall) (paymentId : ℤ) (s : Store) :
    (payIter env c)^[2] (.declined paymentId, s) =
      match updatePaymentStatus s paymentId .failed none with
      | .error e => (.finished (.error e), s)
      | .ok (_, s') => (.finished (.error gatewayError), s') := by
  rw [Function.iterate_succ_apply, payIter, payStep, payIter_orRaise]
  cases updatePaymentStatus s paymentId .failed none with
  | error e => rfl
  | ok failed => exact payIter_finished env c _ failed.2 1

theorem payIter_charged (env : Env) (c : PaymentCall) (paymentId : ℤ) (transactionId : String)
    (s : Store) :
    (payIter env c)^[2] (.charged paymentId transactionId, s) =
      match updatePaymentStatus s paymentId .succeeded (some transactionId) with
      | .error e => (.finished (.error e), s)
      | .ok (_, s') =>
        match confirmBooking s' c.bookingId with
        | .error e => (.finished (.error e), s')
        | .ok (booking, s'') => (.finished (.ok booking), s'') := by
  rw [Function.iterate_succ_apply, payIter, payStep, payIter_orRaise]
  cases updatePaymentStatus s paymentId .succeeded (some transactionId) with
  | error e => rfl
  | ok settled =>
    simp only
    rw [Function.iterate_succ_apply, payIter, payStep, payIter_orRaise]
    cases confirmBooking settled.2 c.bookingId with
    | error e => rfl
    | ok confirmed => exact payIter_finished env c _ confirmed.2 0

/-- Undisturbed, the steps do what the service does. -/
theorem payIter_start (env : Env) (c : PaymentCall) (s : Store) :
    (payIter env c)^[5] (.start, s) =
      (.finished (processPayment env s c).1, (processPayment env s c).2) := by
  unfold processPayment
  rw [Function.iterate_succ_apply, payIter, payStep, payIter_orRaise]
  cases paymentCheck s c.bookingId c.amount with
  | error e => rfl
  | ok booking =>
    simp only
    rw [Function.iterate_succ_apply, payIter, payStep, payIter_orRaise]
    cases createPayment s env.now c with
    | error e => rfl
    | ok created =>
      simp only
      rw [Function.iterate_succ_apply, payIter, payStep]
      cases env.gateway c.charge with
      | none =>
        simp only
        rw [payIter_declined]
        cases updatePaymentStatus created.2 created.1.id .failed none with
        | error e => rfl
        | ok failed => rfl
      | some transactionId =>
        simp only
        rw [payIter_charged]
        cases updatePaymentStatus created.2 created.1.id .succeeded (some transactionId) with
        | error e => rfl
        | ok settled =>
          simp only
          cases confirmBooking settled.2 c.bookingId with
          | error e => rfl
          | ok confirmed => rfl

/-! ### What a call leaves behind -/

theorem paymentCheck_eq_ok {s : Store} {bookingId : ℤ} {amount : ℚ} {b : Booking} :
    paymentCheck s bookingId amount = .ok b ↔
      0 < amount ∧ s.bookings.get bookingId = some b ∧ b.status ≠ .cancelled ∧
        b.status ≠ .completed := by
  unfold paymentCheck
  simp only [bind_eq_ok, ensure_eq_ok, found_eq_ok, pure_eq_ok]
  constructor
  · intro h
    obtain ⟨_, hpos, b', hb, _, hopen, rfl⟩ := h
    exact ⟨hpos, hb, hopen⟩
  · intro h
    exact ⟨(), h.1, b, h.2.1, (), h.2.2, rfl⟩

/-- The call passes its check, and `payments` takes its row with this amount
and currency. -/
structure Accepted (s : Store) (c : PaymentCall) (amount : ℚ) (currency : String) : Prop where
  check : ∃ b, paymentCheck s c.bookingId c.amount = .ok b
  amount_fits : numeric 10 2 c.amount = some amount
  currency_fits : varchar 3 c.currency = some currency
  method_known : c.method ∈ paymentMethods
  user_known : (s.users.get c.userId).isSome = true

/-- No payment has this transaction id yet; an empty one is not stored. -/
def FreshTransaction (s : Store) (transactionId : String) : Prop :=
  transactionId = "" ∨ ∀ p ∈ s.payments.rows, p.transactionId ≠ some transactionId

/-- The store after a call: nothing was stored, or a payment that did not
succeed, or a succeeded payment and the confirmed booking. -/
inductive PayOutcome (env : Env) (s : Store) (c : PaymentCall) : Store → Prop
  | refused (h : ∀ amount currency, ¬Accepted s c amount currency) : PayOutcome env s c s
  | unpaid {amount : ℚ} {currency : String} {status : PaymentStatus}
      (h : Accepted s c amount currency) (hs : status ≠ .succeeded)
      (hg : ∀ t, env.gateway c.charge = some t → ¬FreshTransaction s t) :
      PayOutcome env s c (addPayment s c env.now amount currency status none)
  | paid {amount : ℚ} {currency transactionId : String} (h : Accepted s c amount currency)
      (hg : env.gateway c.charge = some transactionId) (hf : FreshTransaction s transactionId) :
      PayOutcome env s c (setStatus (addPayment s c env.now amount currency .succeeded
        (storedId (some transactionId))) c.bookingId .confirmed)

theorem createPayment_eq_ok {s : Store} {now : ℤ} {c : PaymentCall} {b : Booking}
    {r : Payment × Store} (hb : paymentCheck s c.bookingId c.amount = .ok b) :
    createPayment s now c = .ok r ↔ ∃ amount currency, Accepted s c amount currency ∧
      r = (paymentRow c now amount currency .pending none s.payments.next,
        addPayment s c now amount currency .pending none) := by
  have hbooking : (s.bookings.get c.bookingId).isSome = true := by
    rw [(paymentCheck_eq_ok.mp hb).2.1]
    rfl
  unfold createPayment
  simp only [bind_eq_ok, ensure_eq_ok, found_eq_ok, pure_eq_ok]
  constructor
  · intro h
    obtain ⟨amount, ha, currency, hc, _, ⟨hm, _, hu⟩, rfl⟩ := h
    exact ⟨amount, currency, ⟨⟨b, hb⟩, ha, hc, hm, hu⟩, rfl⟩
  · intro h
    obtain ⟨amount, currency, ha, rfl⟩ := h
    exact ⟨amount, ha.amount_fits, currency, ha.currency_fits, (),
      ⟨ha.method_known, hbooking, ha.user_known⟩, rfl⟩

theorem mem_addPayment {s : Store} {c : PaymentCall} {now : ℤ} {amount : ℚ} {currency : String}
    {status : PaymentStatus} {transactionId : Option String} {p : Payment} :
    p ∈ (addPayment s c now amount currency status transactionId).payments.rows ↔
      p ∈ s.payments.rows ∨
        p = paymentRow c now amount currency status transactionId s.payments.next := by
  simp only [addPayment, Table.mem_insert, stamp_payment, paymentRow]

@[simp] theorem paymentRow_id (c : PaymentCall) (now : ℤ) (amount : ℚ) (currency : String)
    (status : PaymentStatus) (transactionId : Option String) (id : ℤ) :
    (paymentRow c now amount currency status transactionId id).id = id := rfl

@[simp] theorem paymentRow_transactionId (c : PaymentCall) (now : ℤ) (amount : ℚ)
    (currency : String) (status : PaymentStatus) (transactionId : Option String) (id : ℤ) :
    (paymentRow c now amount currency status transactionId id).transactionId = transactionId := rfl

theorem getPaymentById_added (s : Store) (c : PaymentCall) (now : ℤ) (amount : ℚ)
    (currency : String) :
    getPaymentById (addPayment s c now amount currency .pending none) s.payments.next =
      some (paymentRow c now amount currency .pending none s.payments.next) :=
  Table.get_insert_next _

theorem settle_paymentRow (c : PaymentCall) (now : ℤ) (amount : ℚ) (currency : String)
    (status : PaymentStatus) (transactionId : Option String) (id : ℤ) :
    (paymentRow c now amount currency .pending none id).settle status transactionId =
      paymentRow c now amount currency status (storedId transactionId) id := by
  simp only [Payment.settle, paymentRow, Option.or_none]

theorem update_addPayment (s : Store) (c : PaymentCall) (now : ℤ) (amount : ℚ) (currency : String)
    (status : PaymentStatus) (transactionId : Option String) :
    (addPayment s c now amount currency .pending none).payments.update s.payments.next
        (Payment.settle status transactionId) =
      (addPayment s c now amount currency status (storedId transactionId)).payments := by
  refine Table.update_insert_next _ ?_
  simp only [stamp_payment, paymentRow, Payment.settle, Option.or_none]

theorem updatePaymentStatus_added (s : Store) (c : PaymentCall) (now : ℤ) (amount : ℚ)
    (currency : String) (status : PaymentStatus) (transactionId : Option String) :
    updatePaymentStatus (addPayment s c now amount currency .pending none) s.payments.next status
        transactionId =
      if ∃ p ∈ s.payments.rows, p.transactionId.isSome ∧ p.transactionId = storedId transactionId
      then .error .integrity
      else .ok (some (paymentRow c now amount currency status (storedId transactionId)
          s.payments.next),
        addPayment s c now amount currency status (storedId transactionId)) := by
  have hclash : (∃ p ∈ (addPayment s c now amount currency .pending none).payments.rows,
      p.id ≠ s.payments.next ∧ p.transactionId.isSome ∧
        p.transactionId = storedId transactionId) ↔
      ∃ p ∈ s.payments.rows, p.transactionId.isSome ∧
        p.transactionId = storedId transactionId := by
    constructor
    · intro h
      obtain ⟨p, hp, hne, h⟩ := h
      rcases mem_addPayment.mp hp with hold | rfl
      · exact ⟨p, hold, h⟩
      · exact absurd rfl hne
    · intro h
      obtain ⟨p, hp, h⟩ := h
      exact ⟨p, mem_addPayment.mpr (Or.inl hp), s.payments.key_ne_next hp, h⟩
  unfold updatePaymentStatus
  simp only [getPaymentById_added, settle_paymentRow, update_addPayment, paymentRow_transactionId]
  by_cases hdup : ∃ p ∈ s.payments.rows, p.transactionId.isSome ∧
      p.transactionId = storedId transactionId
  · rw [if_pos hdup, ensure, if_neg (not_not.mpr (hclash.mpr hdup))]
    rfl
  · rw [if_neg hdup, ensure, if_pos fun h => hdup (hclash.mp h)]
    rfl

theorem storedId_clash_iff (s : Store) (t : String) :
    (∃ p ∈ s.payments.rows, p.transactionId.isSome ∧ p.transactionId = storedId (some t)) ↔
      ¬FreshTransaction s t := by
  by_cases ht : t = ""
  · have hnone : storedId (some t) = none := by simp [storedId, ht]
    constructor
    · intro h
      obtain ⟨p, _, hsome, heq⟩ := h
      rw [heq, hnone] at hsome
      cases hsome
    · exact fun h => absurd (Or.inl ht) h
  · have hsome : storedId (some t) = some t := by simp [storedId, ht]
    rw [hsome]
    constructor
    · intro h hfresh
      obtain ⟨p, hp, _, heq⟩ := h
      rcases hfresh with hempty | hall
      · exact ht hempty
      · exact hall p hp heq
    · intro h
      by_contra hno
      refine h (Or.inr fun p hp heq => hno ⟨p, hp, ?_, heq⟩)
      rw [heq]
      rfl

theorem confirmBooking_added {s : Store} {c : PaymentCall} {b : Booking}
    (hb : paymentCheck s c.bookingId c.amount = .ok b) (now : ℤ) (amount : ℚ) (currency : String)
    (status : PaymentStatus) (transactionId : Option String) :
    confirmBooking (addPayment s c now amount currency status transactionId) c.bookingId =
      .ok ({ b with status := .confirmed },
        setStatus (addPayment s c now amount currency status transactionId) c.bookingId
          .confirmed) := by
  unfold confirmBooking addPayment
  rw [(paymentCheck_eq_ok.mp hb).2.1]
  rfl

theorem processPayment_of_refused {env : Env} {s : Store} {c : PaymentCall} {e : Error}
    (h : paymentCheck s c.bookingId c.amount = .error e) :
    processPayment env s c = (.error e, s) := by
  unfold processPayment
  simp only [h]

theorem processPayment_of_unstored {env : Env} {s : Store} {c : PaymentCall} {b : Booking}
    {e : Error} (hb : paymentCheck s c.bookingId c.amount = .ok b)
    (h : createPayment s env.now c = .error e) : processPayment env s c = (.error e, s) := by
  unfold processPayment
  simp only [hb, h]

theorem createPayment_of_accepted {s : Store} {c : PaymentCall} {amount : ℚ} {currency : String}
    (now : ℤ) (h : Accepted s c amount currency) :
    createPayment s now c = .ok (paymentRow c now amount currency .pending none s.payments.next,
      addPayment s c now amount currency .pending none) := by
  obtain ⟨b, hb⟩ := h.check
  exact (createPayment_eq_ok hb).mpr ⟨amount, currency, h, rfl⟩

theorem processPayment_of_declined {env : Env} {s : Store} {c : PaymentCall} {amount : ℚ}
    {currency : String} (h : Accepted s c amount currency) (hg : env.gateway c.charge = none) :
    processPayment env s c =
      (.error gatewayError, addPayment s c env.now amount currency .failed none) := by
  obtain ⟨b, hb⟩ := h.check
  have hcreate := createPayment_of_accepted env.now h
  have hfree : ¬∃ p ∈ s.payments.rows, p.transactionId.isSome ∧
      p.transactionId = storedId none := by
    intro hdup
    obtain ⟨p, _, hsome, heq⟩ := hdup
    rw [heq] at hsome
    cases hsome
  unfold processPayment
  simp only [hb, hcreate, hg, paymentRow_id, updatePaymentStatus_added, if_neg hfree]
  rfl

theorem processPayment_of_charged {env : Env} {s : Store} {c : PaymentCall} {amount : ℚ}
    {currency t : String} {b : Booking} (h : Accepted s c amount currency)
    (hb : s.bookings.get c.bookingId = some b) (hg : env.gateway c.charge = some t)
    (hfresh : FreshTransaction s t) :
    processPayment env s c = (.ok { b with status := .confirmed },
      setStatus (addPayment s c env.now amount currency .succeeded (storedId (some t)))
        c.bookingId .confirmed) := by
  obtain ⟨b', hb'⟩ := h.check
  obtain rfl : b' = b := Option.some.inj ((paymentCheck_eq_ok.mp hb').2.1.symm.trans hb)
  have hcreate := createPayment_of_accepted env.now h
  have hfree := mt (storedId_clash_iff s t).mp (not_not.mpr hfresh)
  unfold processPayment
  simp only [hb', hcreate, hg, paymentRow_id, updatePaymentStatus_added, if_neg hfree,
    confirmBooking_added hb']

theorem processPayment_of_clash {env : Env} {s : Store} {c : PaymentCall} {amount : ℚ}
    {currency t : String} (h : Accepted s c amount currency) (hg : env.gateway c.charge = some t)
    (hclash : ¬FreshTransaction s t) :
    processPayment env s c =
      (.error .integrity, addPayment s c env.now amount currency .pending none) := by
  obtain ⟨b, hb⟩ := h.check
  have hcreate := createPayment_of_accepted env.now h
  have hdup := (storedId_clash_iff s t).mpr hclash
  unfold processPayment
  simp only [hb, hcreate, hg, paymentRow_id, updatePaymentStatus_added, if_pos hdup]

theorem processPayment_outcome (env : Env) (s : Store) (c : PaymentCall) :
    PayOutcome env s c (processPayment env s c).2 := by
  cases hcheck : paymentCheck s c.bookingId c.amount with
  | error e =>
    rw [processPayment_of_refused hcheck]
    refine .refused fun amount currency h => ?_
    obtain ⟨b, hb⟩ := h.check
    rw [hcheck] at hb
    cases hb
  | ok b =>
    cases hcreate : createPayment s env.now c with
    | error e =>
      rw [processPayment_of_unstored hcheck hcreate]
      refine .refused fun amount currency h => ?_
      rw [createPayment_of_accepted env.now h] at hcreate
      cases hcreate
    | ok created =>
      obtain ⟨amount, currency, h, rfl⟩ := (createPayment_eq_ok hcheck).mp hcreate
      cases hgate : env.gateway c.charge with
      | none =>
        rw [processPayment_of_declined h hgate]
        refine .unpaid h (by decide) fun t ht => ?_
        rw [hgate] at ht
        cases ht
      | some t =>
        by_cases hfresh : FreshTransaction s t
        · rw [processPayment_of_charged h (paymentCheck_eq_ok.mp hcheck).2.1 hgate hfresh]
          exact .paid h hgate hfresh
        · rw [processPayment_of_clash h hgate hfresh]
          refine .unpaid h (by decide) fun t' ht' => ?_
          obtain rfl := Option.some.inj (hgate.symm.trans ht')
          exact hfresh

theorem processPayment_eq_ok {env : Env} {s : Store} {c : PaymentCall} {b : Booking}
    (h : (processPayment env s c).1 = .ok b) : ∃ amount currency t,
      Accepted s c amount currency ∧ env.gateway c.charge = some t ∧ FreshTransaction s t := by
  cases hcheck : paymentCheck s c.bookingId c.amount with
  | error e =>
    rw [processPayment_of_refused hcheck] at h
    cases h
  | ok found =>
    cases hcreate : createPayment s env.now c with
    | error e =>
      rw [processPayment_of_unstored hcheck hcreate] at h
      cases h
    | ok created =>
      obtain ⟨amount, currency, ha, rfl⟩ := (createPayment_eq_ok hcheck).mp hcreate
      cases hgate : env.gateway c.charge with
      | none =>
        rw [processPayment_of_declined ha hgate] at h
        cases h
      | some t =>
        by_cases hfresh : FreshTransaction s t
        · exact ⟨amount, currency, t, ha, rfl, hfresh⟩
        · rw [processPayment_of_clash ha hgate hfresh] at h
          cases h

theorem makePayment_refused {env : Env} {s : Store} {token : Bearer} {data : PaymentRequest}
    {e : Error} (h : getCurrentUser s token = .error e) :
    (makePayment env s token data).2 = s := by
  unfold makePayment
  rw [h]

theorem makePayment_store {env : Env} {s : Store} {token : Bearer} {data : PaymentRequest}
    {user : User} (h : getCurrentUser s token = .ok user) :
    (makePayment env s token data).2 = (processPayment env s (data.call user)).2 := by
  unfold makePayment
  rw [h]
  simp only
  split <;> simp only [*]

theorem makePayment_cases (env : Env) (s : Store) (token : Bearer) (data : PaymentRequest) :
    (makePayment env s token data).2 = s ∨ ∃ user, getCurrentUser s token = .ok user ∧
      (makePayment env s token data).2 = (processPayment env s (data.call user)).2 := by
  cases huser : getCurrentUser s token with
  | error e => exact Or.inl (makePayment_refused huser)
  | ok user => exact Or.inr ⟨user, rfl, makePayment_store huser⟩

end HotelMs
