import HotelMs.Api

/-!
# How a payment ends

The answer of `process_payment` together with the store it leaves, and what is
charged against what is recorded.
-/

namespace HotelMs

open Tables SqlTypes

/-! ### The three ends -/

/-- What the service refuses before it stores anything. -/
def Refused (s : Store) (c : PaymentCall) : Prop :=
  c.amount ≤ 0 ∨ s.bookings.get c.bookingId = none ∨
    ∃ b, s.bookings.get c.bookingId = some b ∧ (b.status = .cancelled ∨ b.status = .completed)

/-- No statement of the call fails: the row fits `payments`, and the gateway's id
is a new one. Ids are not empty, `_charge_card` returns `txn_...`. -/
structure Storable (env : Env) (s : Store) (c : PaymentCall) (amount : ℚ) (currency : String) :
    Prop where
  amount_fits : numeric 10 2 c.amount = some amount
  currency_fits : varchar 3 c.currency = some currency
  method_known : c.method ∈ paymentMethods
  user_known : (s.users.get c.userId).isSome = true
  id_new : ∀ t, env.gateway c.charge = some t →
    t ≠ "" ∧ ∀ p ∈ s.payments.rows, p.transactionId ≠ some t

theorem paymentCheck_eq_error {s : Store} {bookingId : ℤ} {amount : ℚ} {e : Error}
    (h : paymentCheck s bookingId amount = .error e) : ∃ message, e = .payment message := by
  unfold paymentCheck ensure found at h
  by_cases hpos : 0 < amount
  · rw [if_pos hpos] at h
    cases hb : s.bookings.get bookingId with
    | none =>
      rw [hb] at h
      exact ⟨_, (Except.error.inj h).symm⟩
    | some b =>
      rw [hb] at h
      by_cases hopen : b.status ≠ .cancelled ∧ b.status ≠ .completed
      · simp only [bind, Except.bind, if_pos hopen] at h
        cases h
      · simp only [bind, Except.bind, if_neg hopen] at h
        exact ⟨_, (Except.error.inj h).symm⟩
  · rw [if_neg hpos] at h
    exact ⟨_, (Except.error.inj h).symm⟩

theorem paymentCheck_of_refused {s : Store} {c : PaymentCall} (h : Refused s c) :
    ∃ message, paymentCheck s c.bookingId c.amount = .error (.payment message) := by
  cases hcheck : paymentCheck s c.bookingId c.amount with
  | error e =>
    obtain ⟨message, rfl⟩ := paymentCheck_eq_error hcheck
    exact ⟨message, rfl⟩
  | ok b =>
    obtain ⟨hpos, hb, hcancelled, hcompleted⟩ := paymentCheck_eq_ok.mp hcheck
    rcases h with hle | hnone | ⟨b', hb', hclosed⟩
    · exact absurd hpos (not_lt.mpr hle)
    · rw [hb] at hnone
      cases hnone
    · obtain rfl := Option.some.inj (hb.symm.trans hb')
      rcases hclosed with hclosed | hclosed
      · exact absurd hclosed hcancelled
      · exact absurd hclosed hcompleted

theorem accepted_of_storable {env : Env} {s : Store} {c : PaymentCall} {amount : ℚ}
    {currency : String} (h : Storable env s c amount currency) (hopen : ¬Refused s c) :
    ∃ b, s.bookings.get c.bookingId = some b ∧ Accepted s c amount currency := by
  unfold Refused at hopen
  push Not at hopen
  obtain ⟨hpos, hfound, hstatus⟩ := hopen
  obtain ⟨b, hb⟩ := Option.ne_none_iff_exists'.mp hfound
  have hcheck := paymentCheck_eq_ok.mpr ⟨hpos, hb, hstatus b hb⟩
  exact ⟨b, hb, ⟨b, hcheck⟩, h.amount_fits, h.currency_fits, h.method_known, h.user_known⟩

/-- A payment is refused and stores nothing, or is declined and adds a failed
payment, or goes through, adds a succeeded one and confirms the booking. -/
theorem payment_ends (env : Env) (s : Store) (c : PaymentCall) :
    (Refused s c → (∃ message, (processPayment env s c).1 = .error (.payment message)) ∧
      (processPayment env s c).2 = s) ∧
    ∀ amount currency, Storable env s c amount currency → ¬Refused s c →
      (env.gateway c.charge = none →
        (∃ message, (processPayment env s c).1 = .error (.payment message)) ∧
        (processPayment env s c).2 = addPayment s c env.now amount currency .failed none) ∧
      ∀ t, env.gateway c.charge = some t →
        (∃ b, s.bookings.get c.bookingId = some b ∧
          (processPayment env s c).1 = .ok { b with status := .confirmed }) ∧
        (processPayment env s c).2 = setStatus
          (addPayment s c env.now amount currency .succeeded (some t)) c.bookingId
          .confirmed := by
  refine ⟨fun hrefused => ?_, fun amount currency h hopen => ⟨fun hg => ?_, fun t hg => ?_⟩⟩
  · obtain ⟨message, hcheck⟩ := paymentCheck_of_refused hrefused
    rw [processPayment_of_refused hcheck]
    exact ⟨⟨message, rfl⟩, rfl⟩
  · obtain ⟨_, _, haccepted⟩ := accepted_of_storable h hopen
    rw [processPayment_of_declined haccepted hg]
    exact ⟨⟨_, rfl⟩, rfl⟩
  · obtain ⟨b, hb, haccepted⟩ := accepted_of_storable h hopen
    obtain ⟨hgiven, hnew⟩ := h.id_new t hg
    have hstored : storedId (some t) = some t := by simp [storedId, hgiven]
    rw [processPayment_of_charged haccepted hb hg (Or.inr hnew), hstored]
    exact ⟨⟨b, hb, rfl⟩, rfl⟩

def stayPayment (amount : ℚ) : PaymentCall := ⟨1, 1, amount, "card", "USD"⟩

theorem payment_ends_booked :
    (processPayment (sampleEnv "txn_1") bookedStore (stayPayment 200)).2 =
      setStatus (addPayment bookedStore (stayPayment 200) 0 200 "USD" .succeeded (some "txn_1")) 1
        .confirmed := by
  have hopen : ¬Refused bookedStore (stayPayment 200) := by
    have hget : bookedStore.bookings.get 1 =
        some ⟨1, 1, 1, 1, 10, 12, 1, 0, none, 200, .pending, 0⟩ := by decide +kernel
    intro h
    rcases h with hle | hnone | ⟨b, hb, hclosed⟩
    · exact absurd hle (by decide +kernel)
    · rw [show (stayPayment 200).bookingId = 1 from rfl, hget] at hnone
      cases hnone
    · obtain rfl := Option.some.inj (hget.symm.trans hb)
      rcases hclosed with hclosed | hclosed
      · cases hclosed
      · cases hclosed
  have hstorable : Storable (sampleEnv "txn_1") bookedStore (stayPayment 200) 200 "USD" := by
    refine ⟨by decide +kernel, by decide +kernel, by decide +kernel, by decide +kernel,
      fun t ht => ?_⟩
    obtain rfl := Option.some.inj ht
    exact ⟨by decide, by decide +kernel⟩
  exact (((payment_ends _ bookedStore (stayPayment 200)).2 200 "USD" hstorable hopen).2 "txn_1"
    rfl).2

/-! ### Charged and recorded -/

/-- The payment row has the amount that was charged, and a positive one, exactly
when the amount is in whole cents. -/
theorem charged_eq_recorded_iff (env : Env) (s : Store) (c : PaymentCall) (b : Booking)
    (h : (processPayment env s c).1 = .ok b) :
    ∃ p, (processPayment env s c).2.payments.get s.payments.next = some p ∧
      p.status = .succeeded ∧
      (p.amount = c.charge.amount ∧ 0 < p.amount ↔ HasScale 2 c.amount) := by
  obtain ⟨amount, currency, t, ha, hg, hfresh⟩ := processPayment_eq_ok h
  obtain ⟨b', hb'⟩ := ha.check
  obtain ⟨hpos, hget, _⟩ := paymentCheck_eq_ok.mp hb'
  rw [processPayment_of_charged ha hget hg hfresh]
  refine ⟨_, Table.get_insert_next _, rfl, ?_⟩
  have hexact := numeric_exact_iff ha.amount_fits
  constructor
  · intro hsame
    exact hexact.mp hsame.1
  · intro hcents
    have hsame : amount = c.amount := hexact.mpr hcents
    exact ⟨hsame, lt_of_lt_of_eq hpos hsame.symm⟩

theorem charged_eq_recorded_iff_cents : ∃ p,
    (processPayment (sampleEnv "txn_1") bookedStore (stayPayment 200)).2.payments.get 1 = some p ∧
      p.amount = 200 := by
  have hok : (processPayment (sampleEnv "txn_1") bookedStore
      (stayPayment 200)).1.toOption.isSome = true := by decide +kernel
  cases hb : (processPayment (sampleEnv "txn_1") bookedStore (stayPayment 200)).1 with
  | error e =>
    rw [hb] at hok
    cases hok
  | ok b =>
    obtain ⟨p, hp, _, hiff⟩ := charged_eq_recorded_iff _ _ _ b hb
    have hcents : HasScale 2 (stayPayment 200).amount := ⟨20000, by decide +kernel⟩
    have hnext : bookedStore.payments.next = 1 := by decide +kernel
    rw [hnext] at hp
    exact ⟨p, hp, (hiff.mpr hcents).1⟩

theorem recorded_is_rounded :
    ((processPayment (sampleEnv "txn_1") bookedStore (stayPayment (4 / 1000))).2.payments.get
        1).map (fun p => (p.status, p.amount)) = some (.succeeded, 0) ∧
    ((processPayment (sampleEnv "txn_1") bookedStore (stayPayment (10005 / 1000))).2.payments.get
        1).map (fun p => (p.status, p.amount)) = some (.succeeded, 1001 / 100) := by
  decide +kernel

end HotelMs
