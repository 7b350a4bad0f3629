import HotelMs.Frame
import HotelMs.Lib.Runs

/-!
# The payment task (`tasks/payment_tasks.py`, `celery_app.py`)

One submitted task as the broker and its workers see it: messages that wait,
deliveries in progress and the charges the gateway accepted. With
`task_acks_late` a message is gone only when its delivery is acknowledged, so a
worker that dies gives it back, and `self.retry` publishes a new message before
that. Every delivery runs `process_payment` from its start.
-/

namespace HotelMs

open Tables Runs

def maxRetries : ℕ := 2

/-- A delivery works on the payment, or has published its retry. -/
inductive Stage
  | working (phase : PayPhase)
  | republished

structure Delivery where
  retries : ℕ
  stage : Stage

structure Worker where
  store : Store
  queue : List ℕ
  running : List Delivery
  charges : ℕ

/-- `tookEffect`: the error is raised after the commit, by the `refresh`. -/
inductive DeliveryEvent
  | advance (env : Env)
  | dbError (env : Env) (tookEffect : Bool)
  | crash
  | retry
  | ack

inductive TaskEvent
  | deliver (i : ℕ)
  | on (i : ℕ) (e : DeliveryEvent)

def chargesNow (env : Env) (c : PaymentCall) : PayPhase → ℕ
  | .inserted _ => if (env.gateway c.charge).isSome then 1 else 0
  | _ => 0

def PayPhase.usesDatabase : PayPhase → Bool
  | .inserted _ | .finished _ => false
  | _ => true

def onDelivery (c : PaymentCall) (w : Worker) (d : Delivery) (rest : List Delivery) :
    DeliveryEvent → Worker
  | .advance env =>
    match d.stage with
    | .working phase =>
      { w with
        store := (payStep env c w.store phase).2
        running := ⟨d.retries, .working (payStep env c w.store phase).1⟩ :: rest
        charges := w.charges + chargesNow env c phase }
    | .republished => w
  | .dbError env tookEffect =>
    match d.stage with
    | .working phase =>
      if phase.usesDatabase then
        { w with
          store := if tookEffect then (payStep env c w.store phase).2 else w.store
          running := ⟨d.retries, .working (.finished (.error .data))⟩ :: rest }
      else w
    | .republished => w
  | .crash => { w with queue := d.retries :: w.queue, running := rest }
  | .retry =>
    match d.stage with
    | .working (.finished (.error _)) =>
      if d.retries < maxRetries then
        { w with
          queue := (d.retries + 1) :: w.queue
          running := ⟨d.retries, .republished⟩ :: rest }
      else w
    | _ => w
  | .ack =>
    match d.stage with
    | .working (.finished (.ok _)) | .republished => { w with running := rest }
    | .working (.finished (.error _)) =>
      if d.retries < maxRetries then w else { w with running := rest }
    | _ => w

def taskRun (c : PaymentCall) (w : Worker) : TaskEvent → Worker
  | .deliver i =>
    match w.queue[i]? with
    | none => w
    | some retries =>
      { w with
        queue := w.queue.eraseIdx i
        running := ⟨retries, .working .start⟩ :: w.running }
  | .on i e =>
    match w.running[i]? with
    | none => w
    | some d => onDelivery c w d (w.running.eraseIdx i) e

def submitted (s : Store) : Worker := ⟨s, [0], [], 0⟩

/-! ### At most one charge -/

def PayPhase.hasCharged : PayPhase → Bool
  | .charged _ _ | .settled | .finished (.ok _) => true
  | _ => false

/-- The delivery has charged, or its retry is on its way. -/
def Delivery.spent (d : Delivery) : Bool :=
  match d.stage with
  | .working phase => phase.hasCharged
  | .republished => true

/-- The write of this phase, on its own, cannot fail: the transaction id is no
other payment's, the booking still exists. -/
def WriteFits (s : Store) (c : PaymentCall) : PayPhase → Prop
  | .charged paymentId transactionId => ∀ payment ∈ getPaymentById s paymentId,
    ∀ p ∈ s.payments.rows, p.id ≠ paymentId → p.transactionId.isSome = true →
      p.transactionId ≠ (payment.settle .succeeded (some transactionId)).transactionId
  | .settled => (s.bookings.get c.bookingId).isSome = true
  | _ => True

/-- What may happen to a delivery that has charged: its writes fit and meet no
database error, and its worker stays alive until the delivery is acknowledged. -/
def OnTime (c : PaymentCall) (s : Store) (d : Delivery) : DeliveryEvent → Prop
  | .advance _ =>
    match d.stage with
    | .working phase => WriteFits s c phase
    | .republished => True
  | .dbError _ _ =>
    match d.stage with
    | .working phase => phase.usesDatabase = true → phase.hasCharged = false
    | .republished => True
  | .crash => d.spent = false
  | .retry | .ack => True

def NoLateFailure (c : PaymentCall) (w : Worker) : TaskEvent → Prop
  | .deliver _ => True
  | .on i e => ∀ d ∈ w.running[i]?, OnTime c w.store d e

instance (s : Store) (c : PaymentCall) : ∀ phase, Decidable (WriteFits s c phase)
  | .charged paymentId transactionId =>
    inferInstanceAs (Decidable (∀ payment ∈ getPaymentById s paymentId,
      ∀ p ∈ s.payments.rows, p.id ≠ paymentId → p.transactionId.isSome = true →
        p.transactionId ≠ (payment.settle .succeeded (some transactionId)).transactionId))
  | .settled => inferInstanceAs (Decidable (_ = true))
  | .start | .checked | .inserted _ | .declined _ | .finished _ => instDecidableTrue

instance (c : PaymentCall) (s : Store) : ∀ d e, Decidable (OnTime c s d e)
  | ⟨_, .working phase⟩, .advance _ => inferInstanceAs (Decidable (WriteFits s c phase))
  | ⟨_, .working _⟩, .dbError _ _ => inferInstanceAs (Decidable (_ = true → _ = false))
  | ⟨_, .republished⟩, .advance _ | ⟨_, .republished⟩, .dbError _ _ => instDecidableTrue
  | _, .crash => inferInstanceAs (Decidable (_ = false))
  | _, .retry | _, .ack => instDecidableTrue

instance (c : PaymentCall) (w : Worker) : ∀ e, Decidable (NoLateFailure c w e)
  | .deliver _ => instDecidableTrue
  | .on i e => inferInstanceAs (Decidable (∀ d ∈ w.running[i]?, OnTime c w.store d e))

def Delivery.open (d : Delivery) : ℕ := if d.spent then 0 else 1

/-- Messages, deliveries that may still charge, and charges made. -/
def tokens (w : Worker) : ℕ :=
  w.queue.length + (w.running.map Delivery.open).sum + w.charges

theorem open_eraseIdx {l : List Delivery} {i : ℕ} {d : Delivery} (h : l[i]? = some d) :
    (l.map Delivery.open).sum = d.open + ((l.eraseIdx i).map Delivery.open).sum := by
  obtain ⟨hi, rfl⟩ := List.getElem?_eq_some_iff.mp h
  have hperm := (List.getElem_cons_eraseIdx_perm hi).map Delivery.open
  rw [← hperm.sum_eq, List.map_cons, List.sum_cons]

theorem length_eraseIdx_of_getElem? {l : List ℕ} {i n : ℕ} (h : l[i]? = some n) :
    l.length = (l.eraseIdx i).length + 1 := by
  obtain ⟨hi, _⟩ := List.getElem?_eq_some_iff.mp h
  rw [List.length_eraseIdx_of_lt hi]
  omega

theorem open_le_one (d : Delivery) : d.open ≤ 1 := by
  unfold Delivery.open
  split <;> omega

theorem updatePaymentStatus_fits {s : Store} {c : PaymentCall} {paymentId : ℤ}
    {transactionId : String} (h : WriteFits s c (.charged paymentId transactionId)) :
    ∃ r, updatePaymentStatus s paymentId .succeeded (some transactionId) = .ok r := by
  unfold updatePaymentStatus
  cases hp : getPaymentById s paymentId with
  | none => exact ⟨_, rfl⟩
  | some payment =>
    have hfree : ¬∃ p ∈ s.payments.rows, p.id ≠ paymentId ∧ p.transactionId.isSome ∧
        p.transactionId = (payment.settle .succeeded (some transactionId)).transactionId := by
      intro hclash
      obtain ⟨p, hmem, hne, hsome, heq⟩ := hclash
      exact h payment hp p hmem hne hsome heq
    simp only [ensure, if_pos hfree]
    exact ⟨_, rfl⟩

theorem confirmBooking_fits {s : Store} {c : PaymentCall} (h : WriteFits s c .settled) :
    ∃ r, confirmBooking s c.bookingId = .ok r := by
  obtain ⟨b, hb⟩ := Option.isSome_iff_exists.mp h
  unfold confirmBooking
  rw [hb]
  exact ⟨_, rfl⟩

theorem payStep_open (env : Env) (c : PaymentCall) (s : Store) (retries : ℕ) (phase : PayPhase)
    (h : WriteFits s c phase) :
    Delivery.open ⟨retries, .working (payStep env c s phase).1⟩ + chargesNow env c phase ≤
      Delivery.open ⟨retries, .working phase⟩ := by
  cases phase with
  | start => exact open_le_one _
  | checked => exact open_le_one _
  | declined paymentId => exact open_le_one _
  | inserted paymentId =>
    simp only [payStep, chargesNow]
    cases env.gateway c.charge with
    | none => exact le_rfl
    | some transactionId => exact le_rfl
  | charged paymentId transactionId =>
    obtain ⟨r, hr⟩ := updatePaymentStatus_fits h
    simp only [payStep, hr, orRaise]
    exact le_rfl
  | settled =>
    obtain ⟨r, hr⟩ := confirmBooking_fits h
    simp only [payStep, hr, orRaise]
    exact le_rfl
  | finished result => exact le_rfl

theorem open_of_not_spent {d : Delivery} (h : d.spent = false) : d.open = 1 := by
  unfold Delivery.open
  rw [h]
  rfl

theorem tokens_onDelivery (c : PaymentCall) (w : Worker) (i : ℕ) (d : Delivery)
    (e : DeliveryEvent) (hd : w.running[i]? = some d) (h : OnTime c w.store d e) :
    tokens (onDelivery c w d (w.running.eraseIdx i) e) ≤ tokens w := by
  have hload := open_eraseIdx hd
  have hdrop : tokens { w with running := w.running.eraseIdx i } ≤ tokens w := by
    simp only [tokens]
    omega
  obtain ⟨retries, stage⟩ := d
  cases e with
  | advance env =>
    cases stage with
    | republished => exact le_rfl
    | working phase =>
      have hstep := payStep_open env c w.store retries phase h
      simp only [onDelivery, tokens, List.map_cons, List.sum_cons]
      omega
  | dbError env tookEffect =>
    cases stage with
    | republished => exact le_rfl
    | working phase =>
      simp only [onDelivery]
      split
      next huses =>
        have hopen := open_of_not_spent (d := ⟨retries, .working phase⟩) (h huses)
        have hle := open_le_one ⟨retries, .working (.finished (.error .data))⟩
        simp only [tokens, List.map_cons, List.sum_cons]
        omega
      next => exact le_rfl
  | crash =>
    have hopen := open_of_not_spent h
    simp only [onDelivery, tokens, List.length_cons]
    omega
  | retry =>
    simp only [onDelivery]
    split
    next err =>
      have hopen := open_of_not_spent (d := ⟨retries, .working (.finished (.error err))⟩) rfl
      split
      · have hre : Delivery.open ⟨retries, .republished⟩ = 0 := rfl
        simp only [tokens, List.map_cons, List.sum_cons, List.length_cons]
        omega
      · exact le_rfl
    next => exact le_rfl
  | ack =>
    simp only [onDelivery]
    split
    · exact hdrop
    · exact hdrop
    · split
      · exact le_rfl
      · exact hdrop
    · exact le_rfl

theorem tokens_step (c : PaymentCall) (w : Worker) (e : TaskEvent) (h : NoLateFailure c w e) :
    tokens (taskRun c w e) ≤ tokens w := by
  cases e with
  | deliver i =>
    simp only [taskRun]
    cases hq : w.queue[i]? with
    | none => exact le_rfl
    | some retries =>
      have hlen := length_eraseIdx_of_getElem? hq
      have hnew : Delivery.open ⟨retries, .working .start⟩ = 1 := rfl
      simp only [tokens, List.map_cons, List.sum_cons]
      omega
  | on i e =>
    simp only [taskRun]
    cases hd : w.running[i]? with
    | none => exact le_rfl
    | some d => exact tokens_onDelivery c w i d e hd (h d hd)

/-- Without a late failure the gateway accepts at most one charge of the task,
through every retry and redelivery. -/
theorem charged_at_most_once (c : PaymentCall) (s : Store) (es : List TaskEvent)
    (h : Along (taskRun c) (NoLateFailure c) (submitted s) es) :
    Always (taskRun c) (fun w => w.charges ≤ 1) (submitted s) es := by
  have hstart : tokens (submitted s) ≤ 1 := le_rfl
  have htokens := always_of_along (I := fun w => tokens w ≤ 1)
    (fun w e hw he => (tokens_step c w e he).trans hw) hstart h
  refine htokens.mono fun w hw => ?_
  unfold tokens at hw
  omega

def paysStay : PaymentCall := ⟨1, 1, 200, "card", "USD"⟩

def advances (n : ℕ) (env : Env) : List TaskEvent := List.replicate n (.on 0 (.advance env))

theorem charged_at_most_once_retried :
    Always (taskRun paysStay) (fun w => w.charges ≤ 1) (submitted bookedStore)
      ([.deliver 0] ++ advances 4 { sampleEnv "" with gateway := fun _ => none } ++
        [.on 0 .retry, .on 0 .ack, .deliver 0] ++ advances 5 (sampleEnv "txn_1") ++
        [.on 0 .ack]) :=
  charged_at_most_once paysStay bookedStore _ (by decide +kernel)

/-- The commit after the first charge fails, and the retry charges again. -/
theorem retry_charges_twice :
    (run (taskRun paysStay) (submitted bookedStore)
      ([.deliver 0] ++ advances 3 (sampleEnv "txn_1") ++
        [.on 0 (.dbError (sampleEnv "txn_1") false), .on 0 .retry, .on 0 .ack, .deliver 0] ++
        advances 5 (sampleEnv "txn_2"))).charges = 2 := by
  decide +kernel

end HotelMs
