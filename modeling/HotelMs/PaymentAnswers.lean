import HotelMs.Api
import HotelMs.Lib.Interleave

/-!
# What a payment request is answered

`make_payment` returns the greatest payment id of the booking, in a query of its
own after `process_payment` has committed. `own` is the row that the request's
`create_payment` inserted; no code reads it.
-/

namespace HotelMs

open Tables Runs Interleave

inductive AnswerTask
  | asked (token : Bearer) (data : PaymentRequest)
  | paying (c : PaymentCall) (phase : PayPhase) (own : Option ℤ)
  | paid (bookingId : ℤ) (own : Option ℤ)
  | answered (own : Option ℤ) (answer : Except Error Payment)

def ownAfter (own : Option ℤ) : PayPhase → PayPhase → Option ℤ
  | .checked, .inserted paymentId => some paymentId
  | _, _ => own

/-- `except PaymentError`. -/
def paymentRefusal : Error → Error
  | .payment message => .http 400 message
  | e => e

def afterPayStep (c : PaymentCall) (own : Option ℤ) : PayPhase → AnswerTask
  | .finished (.ok _) => .paid c.bookingId own
  | .finished (.error e) => .answered own (.error (paymentRefusal e))
  | phase => .paying c phase own

def answerStep (env : Env) (s : Store) : AnswerTask → AnswerTask × Store
  | .asked token data =>
    match getCurrentUser s token with
    | .error e => (.answered none (.error e), s)
    | .ok user => (.paying (data.call user) .start none, s)
  | .paying c phase own =>
    let next := payStep env c s phase
    (afterPayStep c (ownAfter own phase next.1) next.1, next.2)
  | .paid bookingId own =>
    (.answered own (found (latestPayment (getPaymentsForBooking s bookingId)) .data), s)
  | .answered own answer => (.answered own answer, s)

/-! ### Undisturbed, the steps do what the endpoint does -/

def answerIter (env : Env) (x : AnswerTask × Store) : AnswerTask × Store :=
  answerStep env x.2 x.1

/-- What the endpoint makes of the outcome of `process_payment`. -/
def payAnswer (bookingId : ℤ) (s : Store) : Except Error Booking → Except Error Payment
  | .ok _ => found (latestPayment (getPaymentsForBooking s bookingId)) .data
  | .error e => .error (paymentRefusal e)

theorem answerIter_answered (env : Env) (own : Option ℤ) (answer : Except Error Payment)
    (s : Store) (n : ℕ) :
    (answerIter env)^[n] (.answered own answer, s) = (.answered own answer, s) := by
  induction n with
  | zero => rfl
  | succ n ih => exact ih

theorem answerIter_finished (env : Env) (c : PaymentCall) (own : Option ℤ)
    (result : Except Error Booking) (s : Store) (n : ℕ) :
    (answerIter env)^[n + 1] (afterPayStep c own (.finished result), s) =
      (.answered own (payAnswer c.bookingId s result), s) := by
  rw [Function.iterate_succ_apply]
  cases result with
  | ok b => exact answerIter_answered env own _ s n
  | error e => exact answerIter_answered env own _ s n

theorem answerIter_paying (env : Env) (c : PaymentCall) {n : ℕ} {phase : PayPhase} {s s' : Store}
    {own : Option ℤ} {result : Except Error Booking}
    (h : (payIter env c)^[n] (phase, s) = (.finished result, s')) :
    ∃ own', (answerIter env)^[n + 2] (.paying c phase own, s) =
      (.answered own' (payAnswer c.bookingId s' result), s') := by
  induction n generalizing phase s own with
  | zero =>
    obtain ⟨rfl, rfl⟩ := Prod.mk.inj h
    rw [Function.iterate_succ_apply]
    exact ⟨_, answerIter_finished env c own result s 0⟩
  | succ n ih =>
    rw [Function.iterate_succ_apply] at h ⊢
    have hrest : (payIter env c)^[n] (payStep env c s phase) = (.finished result, s') := h
    show ∃ own', (answerIter env)^[n + 2] (afterPayStep c (ownAfter own phase
      (payStep env c s phase).1) (payStep env c s phase).1, (payStep env c s phase).2) = _
    obtain ⟨⟨next, s₁⟩, hnext⟩ : ∃ x, payStep env c s phase = x := ⟨_, rfl⟩
    rw [hnext] at hrest ⊢
    cases next with
    | finished result' =>
      rw [payIter_finished] at hrest
      obtain ⟨heq, rfl⟩ := Prod.mk.inj hrest
      cases heq
      exact ⟨_, answerIter_finished env c _ result _ (n + 1)⟩
    | _ => exact ih hrest

theorem makePayment_steps (env : Env) (s : Store) (token : Bearer) (data : PaymentRequest) :
    ∃ own, (answerIter env)^[8] (.asked token data, s) =
      (.answered own (makePayment env s token data).1, (makePayment env s token data).2) := by
  rw [Function.iterate_succ_apply, answerIter, answerStep]
  unfold makePayment
  cases getCurrentUser s token with
  | error e => exact ⟨none, answerIter_answered env none _ s 7⟩
  | ok user =>
    simp only
    have hpaying := fun own => @answerIter_paying env (data.call user) _ _ _ _ own _
      (payIter_start env (data.call user) s)
    obtain ⟨own, hown⟩ := hpaying none
    refine ⟨own, hown.trans ?_⟩
    cases hpay : processPayment env s (data.call user) with
    | mk result s' =>
      cases result with
      | ok b => rfl
      | error e => cases e <;> rfl

/-! ### The rows that requests have inserted -/

def HasPayment (s : Store) (paymentId bookingId : ℤ) : Prop :=
  ∃ p ∈ s.payments.rows, p.id = paymentId ∧ p.bookingId = bookingId

/-- The call has inserted its payment. -/
def PayPhase.hasRow : PayPhase → Bool
  | .start | .checked | .finished (.error _) => false
  | _ => true

theorem hasPayment_created {now : ℤ} {c : PaymentCall} {s : Store} {r : Payment × Store}
    (hr : createPayment s now c = .ok r) :
    (∀ {id bookingId}, HasPayment s id bookingId → HasPayment r.2 id bookingId) ∧
      HasPayment r.2 r.1.id c.bookingId := by
  unfold createPayment at hr
  simp only [bind_eq_ok, found_eq_ok, ensure_eq_ok, pure_eq_ok] at hr
  obtain ⟨amount, _, currency, _, _, _, rfl⟩ := hr
  constructor
  · rintro id bookingId ⟨p, hmem, hp⟩
    exact ⟨p, mem_addPayment.mpr (Or.inl hmem), hp⟩
  · exact ⟨_, mem_addPayment.mpr (Or.inr rfl), rfl, rfl⟩

theorem hasPayment_updated {s s' : Store} {paymentId : ℤ} {status : PaymentStatus}
    {transactionId : Option String} {r : Option Payment} {id bookingId : ℤ}
    (h : HasPayment s id bookingId)
    (hr : updatePaymentStatus s paymentId status transactionId = .ok (r, s')) :
    HasPayment s' id bookingId := by
  unfold updatePaymentStatus at hr
  cases hp : getPaymentById s paymentId with
  | none =>
    rw [hp] at hr
    cases hr
    exact h
  | some payment =>
    rw [hp] at hr
    simp only [bind_eq_ok, ensure_eq_ok, pure_eq_ok] at hr
    obtain ⟨_, _, heq⟩ := hr
    cases heq
    obtain ⟨p, hmem, hid, hbooking⟩ := h
    refine ⟨_, (Table.mem_update _).mpr ⟨p, hmem, rfl⟩, ?_, ?_⟩
    · split
      · exact (Keyed.key_stamp (α := Payment) _ _).trans hid
      · exact hid
    · split
      · exact hbooking
      · exact hbooking

/-- Every step leaves the rows in place, and a call that has inserted one has it
from before or inserts it now. -/
theorem payStep_rows (env : Env) (c : PaymentCall) (s : Store) (phase : PayPhase) :
    (∀ id bookingId, HasPayment s id bookingId →
      HasPayment (payStep env c s phase).2 id bookingId) ∧
    ((payStep env c s phase).1.hasRow = true →
      phase.hasRow = true ∧ (∀ own, ownAfter own phase (payStep env c s phase).1 = own) ∨
      ∃ id, (∀ own, ownAfter own phase (payStep env c s phase).1 = some id) ∧
        HasPayment (payStep env c s phase).2 id c.bookingId) := by
  cases phase with
  | start =>
    rw [payStep]
    cases paymentCheck s c.bookingId c.amount with
    | error e => exact ⟨fun _ _ h => h, fun h => Bool.noConfusion h⟩
    | ok b => exact ⟨fun _ _ h => h, fun h => Bool.noConfusion h⟩
  | checked =>
    rw [payStep]
    cases hr : createPayment s env.now c with
    | error e => exact ⟨fun _ _ h => h, fun h => Bool.noConfusion h⟩
    | ok r =>
      obtain ⟨hkept, hown⟩ := hasPayment_created hr
      exact ⟨fun _ _ h => hkept h, fun _ => Or.inr ⟨_, fun _ => rfl, hown⟩⟩
  | inserted paymentId =>
    rw [payStep]
    cases env.gateway c.charge with
    | none => exact ⟨fun _ _ h => h, fun _ => Or.inl ⟨rfl, fun _ => rfl⟩⟩
    | some transactionId => exact ⟨fun _ _ h => h, fun _ => Or.inl ⟨rfl, fun _ => rfl⟩⟩
  | declined paymentId =>
    rw [payStep]
    cases hr : updatePaymentStatus s paymentId .failed none with
    | error e => exact ⟨fun _ _ h => h, fun h => Bool.noConfusion h⟩
    | ok r => exact ⟨fun _ _ h => hasPayment_updated h hr, fun h => Bool.noConfusion h⟩
  | charged paymentId transactionId =>
    rw [payStep]
    cases hr : updatePaymentStatus s paymentId .succeeded (some transactionId) with
    | error e => exact ⟨fun _ _ h => h, fun h => Bool.noConfusion h⟩
    | ok r => exact ⟨fun _ _ h => hasPayment_updated h hr, fun _ => Or.inl ⟨rfl, fun _ => rfl⟩⟩
  | settled =>
    rw [payStep]
    cases hr : confirmBooking s c.bookingId with
    | error e => exact ⟨fun _ _ h => h, fun h => Bool.noConfusion h⟩
    | ok r =>
      unfold confirmBooking at hr
      simp only [bind_eq_ok, found_eq_ok, pure_eq_ok] at hr
      obtain ⟨b, _, rfl⟩ := hr
      exact ⟨fun _ _ h => h, fun _ => Or.inl ⟨rfl, fun _ => rfl⟩⟩
  | finished result =>
    exact ⟨fun _ _ h => h, fun h => Or.inl ⟨h, fun _ => rfl⟩⟩

/-- A request that has inserted its payment knows it, and the row is there. -/
def AnswerTask.Tracked (s : Store) : AnswerTask → Prop
  | .paying c phase own =>
    phase.hasRow = true → ∃ id, own = some id ∧ HasPayment s id c.bookingId
  | .paid bookingId own => ∃ id, own = some id ∧ HasPayment s id bookingId
  | .asked _ _ | .answered _ _ => True

theorem answerStep_keeps_rows (env : Env) (s : Store) (t : AnswerTask) {id bookingId : ℤ}
    (h : HasPayment s id bookingId) : HasPayment (answerStep env s t).2 id bookingId := by
  cases t with
  | asked token data =>
    simp only [answerStep]
    split <;> exact h
  | paying c phase own => exact (payStep_rows env c s phase).1 id bookingId h
  | paid b own => exact h
  | answered own answer => exact h

theorem AnswerTask.Tracked.mono {s s' : Store} {t : AnswerTask} (h : t.Tracked s)
    (hkeep : ∀ id bookingId, HasPayment s id bookingId → HasPayment s' id bookingId) :
    t.Tracked s' := by
  cases t with
  | asked token data => trivial
  | answered own answer => trivial
  | paying c phase own =>
    intro hrow
    obtain ⟨id, hown, hpayment⟩ := h hrow
    exact ⟨id, hown, hkeep _ _ hpayment⟩
  | paid bookingId own =>
    obtain ⟨id, hown, hpayment⟩ := h
    exact ⟨id, hown, hkeep _ _ hpayment⟩

theorem tracked_afterPayStep {c : PaymentCall} {own : Option ℤ} {s : Store} {phase : PayPhase}
    (h : phase.hasRow = true → ∃ id, own = some id ∧ HasPayment s id c.bookingId) :
    (afterPayStep c own phase).Tracked s := by
  cases phase with
  | finished result =>
    cases result with
    | ok b => exact h rfl
    | error e => trivial
  | _ => exact h

theorem tracked_answerStep (env : Env) (s : Store) (t : AnswerTask) (h : t.Tracked s) :
    (answerStep env s t).1.Tracked (answerStep env s t).2 := by
  cases t with
  | asked token data =>
    simp only [answerStep]
    split
    · trivial
    · exact fun hrow => Bool.noConfusion hrow
  | paying c phase own =>
    obtain ⟨hkeep, hrows⟩ := payStep_rows env c s phase
    refine tracked_afterPayStep fun hrow => ?_
    rcases hrows hrow with ⟨hbefore, hown⟩ | ⟨id, hown, hpayment⟩
    · obtain ⟨id, rfl, hpayment⟩ := h hbefore
      exact ⟨id, hown _, hkeep _ _ hpayment⟩
    · exact ⟨id, hown _, hpayment⟩
  | paid bookingId own => trivial
  | answered own answer => trivial

theorem tracked_turn (y : Shared Store AnswerTask) (e : Turn Env)
    (h : AllTasks (fun s t => AnswerTask.Tracked s t) y) :
    AllTasks (fun s t => AnswerTask.Tracked s t) (turnStep answerStep y e) :=
  allTasks_turnStep (fun env s t ht => tracked_answerStep env s t ht)
    (fun env s t _ _ hu => hu.mono fun _ _ hp => answerStep_keeps_rows env s t hp) y e h

/-! ### The answer -/

theorem foldl_latest {ps : List Payment} {p best : Payment}
    (h : ps.foldl (fun best q => if best.id < q.id then q else best) p = best) :
    best ∈ p :: ps ∧ ∀ q ∈ p :: ps, q.id ≤ best.id := by
  induction ps generalizing p with
  | nil =>
    obtain rfl : p = best := h
    refine ⟨List.mem_singleton.mpr rfl, fun q hq => ?_⟩
    rw [List.mem_singleton.mp hq]
  | cons q ps ih =>
    obtain ⟨hmem, hmax⟩ := ih h
    have hfirst : (if p.id < q.id then q else p).id ≤ best.id := hmax _ List.mem_cons_self
    constructor
    · rcases List.mem_cons.mp hmem with heq | hmem
      · have hone : best = q ∨ best = p := by
          rw [heq]
          exact ite_eq_or_eq _ _ _
        rcases hone with rfl | rfl
        · exact List.mem_cons_of_mem _ List.mem_cons_self
        · exact List.mem_cons_self
      · exact List.mem_cons_of_mem _ (List.mem_cons_of_mem _ hmem)
    · have hboth : p.id ≤ best.id ∧ q.id ≤ best.id := by
        split at hfirst
        next hlt => exact ⟨hlt.le.trans hfirst, hfirst⟩
        next hge => exact ⟨hfirst, (not_lt.mp hge).trans hfirst⟩
      intro r hr
      rcases List.mem_cons.mp hr with rfl | hr
      · exact hboth.1
      · rcases List.mem_cons.mp hr with rfl | hr
        · exact hboth.2
        · exact hmax r (List.mem_cons_of_mem _ hr)

theorem latestPayment_spec {ps : List Payment} {p : Payment} (h : p ∈ ps) :
    ∃ best, latestPayment ps = some best ∧ best ∈ ps ∧ ∀ q ∈ ps, q.id ≤ best.id := by
  cases ps with
  | nil => cases h
  | cons q ps => exact ⟨_, rfl, foldl_latest rfl⟩

/-- The re-read finds the request's own row if none of the booking is newer. -/
theorem latest_isOwn_iff {s : Store} {id bookingId : ℤ} (h : HasPayment s id bookingId) :
    (∀ p, found (latestPayment (getPaymentsForBooking s bookingId)) .data = .ok p → p.id = id) ↔
      ∀ p ∈ s.payments.rows, p.bookingId = bookingId → p.id ≤ id := by
  have hmem : ∀ p, p ∈ getPaymentsForBooking s bookingId ↔
      p ∈ s.payments.rows ∧ p.bookingId = bookingId := by
    intro p
    unfold getPaymentsForBooking
    rw [Table.mem_select, decide_eq_true_iff]
  obtain ⟨p, hp, rfl, hbooking⟩ := h
  obtain ⟨best, hbest, hin, hmax⟩ := latestPayment_spec ((hmem p).mpr ⟨hp, hbooking⟩)
  rw [hbest]
  constructor
  · intro hown q hq hqb
    rw [← hown best rfl]
    exact hmax q ((hmem q).mpr ⟨hq, hqb⟩)
  · intro hall q hq
    cases hq
    have hle := hall best ((hmem best).mp hin).1 ((hmem best).mp hin).2
    have hge := hmax p ((hmem p).mpr ⟨hp, hbooking⟩)
    exact le_antisymm hle hge

def AnswerTask.Own : AnswerTask → Prop
  | .answered own answer => ∀ p, answer = .ok p → own = some p.id
  | _ => True

def OwnAnswers (y : Shared Store AnswerTask) : Prop := ∀ i, (y.tasks i).Own

/-- When a request reads its booking's payments again, none of them is newer
than its own. -/
def LatestIsOwn (y : Shared Store AnswerTask) (e : Turn Env) : Prop :=
  ∀ bookingId id, y.tasks e.task = .paid bookingId (some id) →
    ∀ p ∈ y.data.payments.rows, p.bookingId = bookingId → p.id ≤ id

theorem own_afterPayStep (c : PaymentCall) (own : Option ℤ) (phase : PayPhase) :
    (afterPayStep c own phase).Own := by
  cases phase with
  | finished result =>
    cases result with
    | ok b => trivial
    | error e => exact fun p hp => by cases hp
  | _ => trivial

theorem own_answerStep_iff (env : Env) {s : Store} {t : AnswerTask} (htrack : t.Tracked s)
    (hown : t.Own) :
    (answerStep env s t).1.Own ↔ ∀ bookingId id, t = .paid bookingId (some id) →
      ∀ p ∈ s.payments.rows, p.bookingId = bookingId → p.id ≤ id := by
  cases t with
  | paid bookingId own =>
    obtain ⟨id, rfl, hpayment⟩ := htrack
    have hiff := latest_isOwn_iff hpayment
    constructor
    · intro h bookingId' id' heq
      cases heq
      exact hiff.mp fun p hp => (Option.some_inj.mp (h p hp)).symm
    · intro h p hp
      exact congrArg some (hiff.mpr (h bookingId id rfl) p hp).symm
  | asked token data =>
    refine iff_of_true ?_ fun _ _ heq => by cases heq
    simp only [answerStep]
    split
    · exact fun p hp => by cases hp
    · trivial
  | paying c phase own =>
    exact iff_of_true (own_afterPayStep c _ _) fun _ _ heq => by cases heq
  | answered own answer => exact iff_of_true hown fun _ _ heq => by cases heq

theorem ownAnswers_turn (y : Shared Store AnswerTask) (e : Turn Env)
    (htrack : AllTasks (fun s t => AnswerTask.Tracked s t) y) (h : OwnAnswers y) :
    OwnAnswers (turnStep answerStep y e) ↔ LatestIsOwn y e := by
  refine Iff.trans ?_ (own_answerStep_iff e.env (htrack e.task) (h e.task))
  constructor
  · intro hall
    have hself := hall e.task
    rwa [tasks_self] at hself
  · intro hself i
    by_cases hi : i = e.task
    · rw [hi, tasks_self]
      exact hself
    · rw [tasks_of_ne y hi]
      exact h i

def paymentRequests (s : Store) (requests : ℕ → Bearer × PaymentRequest) :
    Shared Store AnswerTask where
  data := s
  tasks := fun i => .asked (requests i).1 (requests i).2

/-- Interleaved payments are all answered with their own row exactly when every
request reads again before a newer payment of its booking is there. -/
theorem ownAnswers_iff (s : Store) (requests : ℕ → Bearer × PaymentRequest)
    (es : List (Turn Env)) :
    Always (turnStep answerStep) OwnAnswers (paymentRequests s requests) es ↔
      Along (turnStep answerStep) LatestIsOwn (paymentRequests s requests) es :=
  always_iff_along tracked_turn (fun y e htrack _ h => ownAnswers_turn y e htrack h)
    (along_of_forall fun _ _ _ => trivial) (fun _ => trivial) fun _ => trivial

/-- The guest pays booking 1 twice at the same time, each half of the price. -/
def twoPayments (_ : ℕ) : Bearer × PaymentRequest := (some 1, ⟨1, 100, "card", "USD"⟩)

def paymentTurns (turns : List (ℕ × String)) : List (Turn Env) :=
  turns.map fun turn => ⟨turn.1, sampleEnv turn.2⟩

instance : ∀ t : AnswerTask, Decidable t.Own
  | .answered own (.ok p) =>
    decidable_of_iff (own = some p.id)
      ⟨fun h q hq => by cases hq; exact h, fun h => h p rfl⟩
  | .answered _ (.error _) => isTrue fun _ hp => by cases hp
  | .asked _ _ | .paying _ _ _ | .paid _ _ => instDecidableTrue

/-- The second payment is inserted before the first request reads again. -/
theorem answered_with_another : ¬Always (turnStep answerStep) OwnAnswers
    (paymentRequests bookedStore twoPayments)
    (paymentTurns [(0, "txn_1"), (0, "txn_1"), (0, "txn_1"), (1, "txn_2"), (1, "txn_2"),
      (1, "txn_2"), (0, "txn_1"), (0, "txn_1"), (0, "txn_1"), (0, "txn_1")]) := by
  intro h
  have hown := h.last 0
  revert hown
  decide +kernel

end HotelMs
