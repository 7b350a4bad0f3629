import HotelMs.OccupancyRuns

/-!
# What has been paid

The sum of the succeeded payments of a booking against its total price, over
serial runs. Neither is ever compared by `process_payment`.
-/

namespace HotelMs

open Tables Runs

def paidSum (s : Store) (bookingId : ℤ) : ℚ :=
  ((s.payments.select fun p => p.bookingId = bookingId && p.status = .succeeded).map
    Payment.amount).sum

/-- The call is carried through and stores this amount. -/
def Carried (env : Env) (s : Store) (c : PaymentCall) (amount : ℚ) : Prop :=
  ∃ currency transactionId, Accepted s c amount currency ∧
    env.gateway c.charge = some transactionId ∧ FreshTransaction s transactionId

theorem Carried.amount_unique {env : Env} {s : Store} {c : PaymentCall} {amount amount' : ℚ}
    (h : Carried env s c amount) (h' : Carried env s c amount') : amount = amount' := by
  obtain ⟨_, _, ha, _⟩ := h
  obtain ⟨_, _, ha', _⟩ := h'
  exact Option.some.inj (ha.amount_fits.symm.trans ha'.amount_fits)

theorem paidSum_congr {s s' : Store} (h : s'.payments = s.payments) (id : ℤ) :
    paidSum s' id = paidSum s id := by
  unfold paidSum
  rw [h]

theorem paidSum_setStatus (s : Store) (id i : ℤ) (status : BookingStatus) :
    paidSum (setStatus s id status) i = paidSum s i :=
  paidSum_congr rfl i

theorem paidSum_addPayment (s : Store) (c : PaymentCall) (now : ℤ) (amount : ℚ)
    (currency : String) (status : PaymentStatus) (transactionId : Option String) (id : ℤ) :
    paidSum (addPayment s c now amount currency status transactionId) id =
      paidSum s id + if c.bookingId = id ∧ status = .succeeded then amount else 0 := by
  unfold paidSum addPayment
  simp only [Table.select, Table.insert, List.filter_append, List.map_append, List.sum_append,
    stamp_payment, paymentRow]
  congr 1
  by_cases h : c.bookingId = id ∧ status = .succeeded
  · rw [if_pos h]
    simp [h.1, h.2]
  · rw [if_neg h]
    by_cases hid : c.bookingId = id
    · have hs : ¬status = .succeeded := fun hs => h ⟨hid, hs⟩
      simp [hs]
    · simp [hid]

theorem processPayment_paid (env : Env) (s : Store) (c : PaymentCall) :
    (∃ amount, Carried env s c amount ∧
      (processPayment env s c).2.bookings = (setStatus s c.bookingId .confirmed).bookings ∧
      ∀ id, paidSum (processPayment env s c).2 id =
        paidSum s id + if c.bookingId = id then amount else 0) ∨
    ((∀ amount, ¬Carried env s c amount) ∧
      (processPayment env s c).2.bookings = s.bookings ∧
      ∀ id, paidSum (processPayment env s c).2 id = paidSum s id) := by
  have ho := processPayment_outcome env s c
  generalize (processPayment env s c).2 = s' at ho ⊢
  cases ho with
  | refused h =>
    refine Or.inr ⟨fun amount hc => ?_, rfl, fun id => rfl⟩
    obtain ⟨currency, _, ha, _⟩ := hc
    exact h amount currency ha
  | @unpaid amount currency status h hs hg =>
    refine Or.inr ⟨fun amount hc => ?_, rfl, fun id => ?_⟩
    · obtain ⟨_, t, _, ht, hf⟩ := hc
      exact hg t ht hf
    · rw [paidSum_addPayment, if_neg fun h => hs h.2, add_zero]
  | @paid amount currency transactionId h hg hf =>
    refine Or.inl ⟨amount, ⟨currency, transactionId, h, hg, hf⟩, rfl, fun id => ?_⟩
    rw [paidSum_setStatus, paidSum_addPayment]
    simp only [and_true]

/-! ### Paid in full -/

def Action.isStay : Action → Bool
  | .call ⟨_, _, .guest (.createBooking _)⟩ => true
  | .call ⟨_, _, .guest (.cancelBooking _)⟩ => true
  | .call ⟨_, _, .guest (.makePayment _)⟩ => true
  | .payment _ _ => true
  | _ => false

def Action.paymentCall (s : Store) : Action → Option (Env × PaymentCall)
  | .payment env c => some (env, c)
  | .call ⟨env, token, .guest (.makePayment data)⟩ =>
    match getCurrentUser s token with
    | .ok user => some (env, data.call user)
    | .error _ => none
  | _ => none

theorem act_of_paymentCall {ext : Ext} {s : Store} {a : Action} {env : Env} {c : PaymentCall}
    (h : a.paymentCall s = some (env, c)) : act ext s a = (processPayment env s c).2 := by
  unfold Action.paymentCall at h
  split at h
  · cases h
    rfl
  · split at h
    next hu =>
      cases h
      exact makePayment_store hu
    next => cases h
  · cases h

theorem createBooking_unconfirmed (env : Env) (s : Store) (token : Bearer)
    (data : BookingCreate) :
    ∀ b ∈ (committed s (createBookingEndpoint env s token data)).bookings.rows,
      b.status = .confirmed → b ∈ s.bookings.rows := by
  intro b hb hst
  rcases createBookingEndpoint_bookings env s token data with hsame | hnew
  · rwa [hsame] at hb
  · obtain ⟨new, _, _, _, _, hid, hpending, hinsert⟩ := hnew
    rw [hinsert] at hb
    rcases (Table.mem_insert _).mp hb with hold | rfl
    · exact hold
    · rw [stamp_eq_self hid, hpending] at hst
      cases hst

theorem cancelBooking_unconfirmed (s : Store) (token : Bearer) (bookingId : ℤ) :
    ∀ b ∈ (committed s (cancelBookingEndpoint s token bookingId)).bookings.rows,
      b.status = .confirmed → b ∈ s.bookings.rows := by
  intro b hb hst
  rcases cancelBookingEndpoint_bookings s token bookingId with hsame | hset
  · rwa [hsame] at hb
  · obtain ⟨old, hold, hset⟩ := hset
    rw [hset] at hb
    rcases (mem_setStatus hold).mp hb with rfl | hkept
    · cases hst
    · exact hkept.1

theorem act_without_payment {ext : Ext} {s : Store} {a : Action} (ha : a.isStay = true)
    (h : a.paymentCall s = none) :
    (act ext s a).payments = s.payments ∧
      ∀ b ∈ (act ext s a).bookings.rows, b.status = .confirmed → b ∈ s.bookings.rows := by
  unfold Action.isStay at ha
  split at ha
  next env token data =>
    exact ⟨createBookingEndpoint_writes.committed .payments (by decide),
      createBooking_unconfirmed env s token data⟩
  next env token bookingId =>
    exact ⟨cancelBookingEndpoint_writes.committed .payments (by decide),
      cancelBooking_unconfirmed s token bookingId⟩
  next env token data =>
    have hs : (makePayment env s token data).2 = s := by
      unfold Action.paymentCall at h
      simp only at h
      split at h
      · cases h
      next hu =>
        exact makePayment_refused hu
    show (makePayment env s token data).2.payments = _ ∧
      ∀ b ∈ (makePayment env s token data).2.bookings.rows, _
    rw [hs]
    exact ⟨rfl, fun b hb _ => hb⟩
  next => cases h
  next => cases ha

def PaidInFull (s : Store) : Prop :=
  ∀ b ∈ s.bookings.rows, b.status = .confirmed → b.totalPrice ≤ paidSum s b.id

instance (s : Store) : Decidable (PaidInFull s) :=
  inferInstanceAs (Decidable (∀ b ∈ s.bookings.rows, b.status = .confirmed →
    b.totalPrice ≤ paidSum s b.id))

/-- A payment that is carried through brings what has been paid up to the total. -/
def PaysInFull (s : Store) (a : Action) : Prop :=
  ∀ env c amount, a.paymentCall s = some (env, c) → Carried env s c amount →
    ∀ b, s.bookings.get c.bookingId = some b → b.totalPrice ≤ paidSum s c.bookingId + amount

theorem Carried.booking {env : Env} {s : Store} {c : PaymentCall} {amount : ℚ}
    (h : Carried env s c amount) : ∃ b, s.bookings.get c.bookingId = some b := by
  obtain ⟨_, _, hasked, _⟩ := h
  obtain ⟨b, hcheck⟩ := hasked.check
  exact ⟨b, (paymentCheck_eq_ok.mp hcheck).2.1⟩

/-- Confirming one booking leaves all paid in full exactly if the sum of the
payments has come up to the total of that one. -/
theorem paidInFull_confirmed_iff {s s' : Store} {id : ℤ} {b : Booking} {amount : ℚ}
    (h : PaidInFull s) (hb : s.bookings.get id = some b)
    (hbook : s'.bookings = (setStatus s id .confirmed).bookings)
    (hsum : ∀ k, paidSum s' k = paidSum s k + if id = k then amount else 0) :
    PaidInFull s' ↔ b.totalPrice ≤ paidSum s id + amount := by
  have hid : b.id = id := ((Table.get_eq_some _).mp hb).2
  have hmine : paidSum s' b.id = paidSum s id + amount := by
    rw [hsum, if_pos hid.symm, hid]
  constructor
  · intro hfull
    have hmem : { b with status := .confirmed } ∈ s'.bookings.rows := by
      rw [hbook]
      exact (mem_setStatus hb).mpr (Or.inl rfl)
    have hpaid : b.totalPrice ≤ paidSum s' b.id := hfull { b with status := .confirmed } hmem rfl
    rwa [hmine] at hpaid
  · intro hpaid x hx hst
    rw [hbook] at hx
    rcases (mem_setStatus hb).mp hx with rfl | hold
    · rwa [← hmine] at hpaid
    · rw [hsum, if_neg (Ne.symm hold.2), add_zero]
      exact h x hold.1 hst

theorem paidInFull_step_iff (ext : Ext) (s : Store) (a : Action) (ha : a.isStay = true)
    (h : PaidInFull s) : PaidInFull (act ext s a) ↔ PaysInFull s a := by
  cases hc : a.paymentCall s with
  | none =>
    obtain ⟨hpay, hbook⟩ := act_without_payment ha hc
    refine iff_of_true (fun b hb hst => ?_) fun env c amount hcall => ?_
    · rw [paidSum_congr hpay]
      exact h b (hbook b hb hst) hst
    · rw [hc] at hcall
      cases hcall
  | some call =>
    obtain ⟨env, c⟩ := call
    rw [act_of_paymentCall hc]
    rcases processPayment_paid env s c with hp | hp
    · obtain ⟨amount, hcarried, hbook, hsum⟩ := hp
      obtain ⟨b, hb⟩ := hcarried.booking
      rw [paidInFull_confirmed_iff h hb hbook hsum]
      constructor
      · intro hpaid env' c' amount' hcall hcarried' b' hb'
        cases hcall.symm.trans hc
        obtain rfl := Option.some.inj (hb.symm.trans hb')
        obtain rfl := hcarried.amount_unique hcarried'
        exact hpaid
      · intro hfull
        exact hfull env c amount hc hcarried b hb
    · obtain ⟨hno, hbook, hsum⟩ := hp
      refine iff_of_true (fun b hb hst => ?_) fun env' c' amount hcall hcarried => ?_
      · rw [hbook] at hb
        rw [hsum]
        exact h b hb hst
      · cases hcall.symm.trans hc
        exact absurd hcarried (hno amount)

theorem paidInFull_empty {s : Store} (h : s.bookings.rows = []) : PaidInFull s := by
  intro b hb
  rw [h] at hb
  cases hb

/-- Confirmed bookings stay paid in full exactly as long as every payment that is
carried through pays in full. -/
theorem stays_paid_in_full_iff (ext : Ext) (s : Store) (hempty : s.bookings.rows = [])
    (as : List Action) (hstay : ∀ a ∈ as, a.isStay = true) :
    Always (act ext) PaidInFull s as ↔ Along (act ext) PaysInFull s as :=
  always_iff_along (J := fun _ => True) (fun _ _ _ => trivial)
    (fun s a _ ha h => paidInFull_step_iff ext s a ha h) (along_of_forall fun _ => hstay) trivial
    (paidInFull_empty hempty)

def pays (userId bookingId : ℤ) (amount : ℚ) (transactionId : String) : Action :=
  .call ⟨sampleEnv transactionId, some userId,
    .guest (.makePayment ⟨bookingId, amount, "card", "USD"⟩)⟩

theorem stays_paid_in_full_iff_sample :
    Always (act sampleExt) PaidInFull sampleStore
        [books 1 10 12 (by decide), pays 1 1 200 "txn_1"] ↔
      Along (act sampleExt) PaysInFull sampleStore
        [books 1 10 12 (by decide), pays 1 1 200 "txn_1"] :=
  stays_paid_in_full_iff sampleExt sampleStore rfl _ (by decide)

theorem one_unit_confirms :
    ¬PaidInFull (run (act sampleExt) sampleStore
      [books 1 10 12 (by decide), pays 1 1 1 "txn_1"]) := by
  decide +kernel

/-! ### Overcharge -/

def payAct (s : Store) (e : Env × PaymentCall) : Store := (processPayment e.1 s e.2).2

def WithinTotal (bookingId : ℤ) (s : Store) : Prop :=
  ∀ b, s.bookings.get bookingId = some b → paidSum s bookingId ≤ b.totalPrice

instance (bookingId : ℤ) (s : Store) : Decidable (WithinTotal bookingId s) :=
  decidable_of_iff (∀ b ∈ s.bookings.get bookingId, paidSum s bookingId ≤ b.totalPrice) Iff.rfl

/-- A booking paid in full takes no further payment. -/
def ClosedWhenPaid (bookingId : ℤ) (s : Store) (e : Env × PaymentCall) : Prop :=
  e.2.bookingId = bookingId → ∀ amount, Carried e.1 s e.2 amount →
    ∀ b, s.bookings.get bookingId = some b → paidSum s bookingId < b.totalPrice

/-- A call that is carried through pays no more than an open balance. -/
def PaysBalance (bookingId : ℤ) (s : Store) (e : Env × PaymentCall) : Prop :=
  e.2.bookingId = bookingId → ∀ amount, Carried e.1 s e.2 amount →
    ∀ b, s.bookings.get bookingId = some b →
      paidSum s bookingId < b.totalPrice ∧ amount ≤ b.totalPrice - paidSum s bookingId

theorem payAct_total (s : Store) (e : Env × PaymentCall) (id : ℤ) :
    ((payAct s e).bookings.get id).map Booking.totalPrice =
      (s.bookings.get id).map Booking.totalPrice := by
  unfold payAct
  rcases processPayment_paid e.1 s e.2 with h | h
  · obtain ⟨_, _, hbook, _⟩ := h
    rw [hbook]
    unfold setStatus
    rw [Table.get_update, Option.map_map]
    refine Option.map_congr fun b _ => ?_
    simp only [Function.comp_apply]
    split <;> rfl
  · rw [h.2.1]

theorem withinTotal_iff {bookingId : ℤ} {s : Store} :
    WithinTotal bookingId s ↔
      ∀ t ∈ (s.bookings.get bookingId).map Booking.totalPrice, paidSum s bookingId ≤ t := by
  unfold WithinTotal
  cases s.bookings.get bookingId with
  | none => simp
  | some b => simp

theorem payAct_paidSum {s : Store} {e : Env × PaymentCall} {amount : ℚ}
    (h : Carried e.1 s e.2 amount) (id : ℤ) :
    paidSum (payAct s e) id = paidSum s id + if e.2.bookingId = id then amount else 0 := by
  rcases processPayment_paid e.1 s e.2 with hp | hp
  · obtain ⟨amount', hcarried, _, hsum⟩ := hp
    obtain rfl := h.amount_unique hcarried
    exact hsum id
  · exact absurd h (hp.1 amount)

theorem payAct_paidSum_of_not {s : Store} {e : Env × PaymentCall}
    (h : ∀ amount, ¬Carried e.1 s e.2 amount) (id : ℤ) :
    paidSum (payAct s e) id = paidSum s id := by
  rcases processPayment_paid e.1 s e.2 with hp | hp
  · obtain ⟨amount, hcarried, _⟩ := hp
    exact absurd hcarried (h amount)
  · exact hp.2.2 id

theorem withinTotal_step_iff (bookingId : ℤ) (s : Store) (e : Env × PaymentCall)
    (h : WithinTotal bookingId s) :
    WithinTotal bookingId (payAct s e) ∧ ClosedWhenPaid bookingId s e ↔
      PaysBalance bookingId s e := by
  rw [withinTotal_iff] at h ⊢
  rw [payAct_total]
  by_cases hc : e.2.bookingId = bookingId ∧ ∃ amount, Carried e.1 s e.2 amount
  · obtain ⟨hid, amount, hcarried⟩ := hc
    rw [payAct_paidSum hcarried, if_pos hid]
    constructor
    · intro hp _ amount' hcarried' b hb
      obtain rfl := hcarried.amount_unique hcarried'
      have hle := hp.1 b.totalPrice (by simp [hb])
      exact ⟨hp.2 hid amount hcarried b hb, by linarith⟩
    · intro hp
      refine ⟨fun t ht => ?_, fun _ amount' hcarried' b hb => (hp hid amount' hcarried' b hb).1⟩
      obtain ⟨b, hb, rfl⟩ := Option.map_eq_some_iff.mp ht
      have hle := (hp hid amount hcarried b hb).2
      linarith
  · -- the booking's sum stays, and both sides say nothing about this call
    have hsame : paidSum (payAct s e) bookingId = paidSum s bookingId := by
      by_cases hcarried : ∃ amount, Carried e.1 s e.2 amount
      · obtain ⟨amount, hcarried⟩ := hcarried
        have hid : ¬e.2.bookingId = bookingId := fun hid => hc ⟨hid, amount, hcarried⟩
        rw [payAct_paidSum hcarried, if_neg hid, add_zero]
      · exact payAct_paidSum_of_not (not_exists.mp hcarried) bookingId
    rw [hsame]
    refine iff_of_true ⟨h, fun hid amount hcarried => ?_⟩ fun hid amount hcarried => ?_
    · exact absurd ⟨hid, amount, hcarried⟩ hc
    · exact absurd ⟨hid, amount, hcarried⟩ hc

/-- Over any run of calls a booking is never overcharged, and closed once it is
paid, exactly when it starts so and every call carried through pays no more than
the open balance. -/
theorem never_overcharged_iff (bookingId : ℤ) (s : Store) (es : List (Env × PaymentCall)) :
    Always payAct (WithinTotal bookingId) s es ∧ Along payAct (ClosedWhenPaid bookingId) s es ↔
      WithinTotal bookingId s ∧ Along payAct (PaysBalance bookingId) s es :=
  always_and_along_iff fun s e => withinTotal_step_iff bookingId s e

theorem double_click_overcharges :
    WithinTotal 1 bookedStore ∧
    ¬WithinTotal 1 (run payAct bookedStore
      [(sampleEnv "txn_1", ⟨1, 1, 200, "card", "USD"⟩),
        (sampleEnv "txn_2", ⟨1, 1, 200, "card", "USD"⟩)]) := by
  decide +kernel

end HotelMs
