import HotelMs.Connections
import Mathlib.Data.Fintype.Basic

/-!
# Pushing an event to every replica

`send_to_user` of `services/websocket.py` publishes on one Redis channel. Redis
hands a message to the subscriber of every replica, and `_listen` delivers them
one after the other. When the publish raises, the calling replica delivers to its
own sockets, whether or not Redis has distributed the message. The number of the
call is not in the envelope: it tells two calls with the same event apart.
-/

namespace HotelMs

open Runs

/-- The delivery in which a send to the socket has failed, if the entry says so. -/
def LogEntry.failedOf {μ : Type} (ws : WebSocket) : LogEntry μ → Option ℕ
  | .failed d ws' => if ws' = ws then some d else none
  | _ => none

structure Envelope where
  call : ℕ
  userId : ℤ
  event : String
  data : String
  deriving DecidableEq

/-- `queue` is what Redis has distributed to the subscriber and `_listen` has not
taken yet, `listening` the delivery that `_listen` awaits. -/
structure Replica where
  manager : ConnectionManager Envelope
  queue : List Envelope
  listening : Option ℕ

/-- `publishing`: the calls that await their publish, with their replica.
`published`: what Redis may still distribute. `distributed` and `raised` say what
has happened: the messages that Redis distributed, the calls whose publish raised. -/
structure Cluster (ρ : Type) where
  replica : ρ → Replica
  nextCall : ℕ
  publishing : List (ρ × Envelope)
  published : List Envelope
  distributed : List Envelope
  raised : List (ρ × Envelope)

inductive ClusterEvent (ρ : Type)
  | connect (r : ρ) (userId : ℤ) (ws : WebSocket)
  | disconnect (r : ρ) (userId : ℤ) (ws : WebSocket)
  | sendToUser (r : ρ) (userId : ℤ) (event data : String)
  | distribute (e : Envelope)
  | publishReturns (r : ρ) (e : Envelope)
  | publishRaises (r : ρ) (e : Envelope)
  | take (r : ρ)
  | resume (r : ρ) (delivery : ℕ) (ok : Bool)

namespace Replica

def new : Replica := ⟨.new, [], none⟩

def idle (p : Replica) : Bool := p.manager.deliveries.all fun x => p.listening ≠ some x.id

def localSend (p : Replica) (e : Envelope) : Replica :=
  { p with manager := p.manager.localSend e.userId e }

/-- `async for message in pubsub.listen()` -/
def take (p : Replica) : Replica :=
  match p.queue with
  | [] => p
  | e :: queue =>
    if p.idle then
      { p.localSend e with queue, listening := some p.manager.nextDelivery }
    else p

def onManager (p : Replica) (ev : ManagerEvent Envelope) : Replica :=
  { p with manager := p.manager.step ev }

end Replica

namespace Cluster

variable {ρ : Type} [DecidableEq ρ]

def start : Cluster ρ := ⟨fun _ => .new, 0, [], [], [], []⟩

def on (w : Cluster ρ) (r : ρ) (f : Replica → Replica) : Cluster ρ :=
  { w with replica := Function.update w.replica r (f (w.replica r)) }

def sendToUser (w : Cluster ρ) (r : ρ) (userId : ℤ) (event data : String) : Cluster ρ :=
  let e : Envelope := ⟨w.nextCall, userId, event, data⟩
  { w with
    nextCall := w.nextCall + 1
    publishing := (r, e) :: w.publishing
    published := e :: w.published }

def distribute (w : Cluster ρ) (e : Envelope) : Cluster ρ :=
  if e ∈ w.published then
    { w with
      replica := fun r => { w.replica r with queue := (w.replica r).queue ++ [e] }
      published := w.published.erase e
      distributed := e :: w.distributed }
  else w

-- Redis answers a publish after it has distributed the message
def publishReturns (w : Cluster ρ) (r : ρ) (e : Envelope) : Cluster ρ :=
  if (r, e) ∈ w.publishing ∧ e ∈ w.distributed then
    { w with publishing := w.publishing.erase (r, e) }
  else w

def publishRaises (w : Cluster ρ) (r : ρ) (e : Envelope) : Cluster ρ :=
  if (r, e) ∈ w.publishing then
    { w.on r fun p => p.localSend e with
      publishing := w.publishing.erase (r, e)
      raised := (r, e) :: w.raised }
  else w

def step (w : Cluster ρ) : ClusterEvent ρ → Cluster ρ
  | .connect r userId ws => w.on r fun p => p.onManager (.connect userId ws)
  | .disconnect r userId ws => w.on r fun p => p.onManager (.disconnect userId ws)
  | .sendToUser r userId event data => w.sendToUser r userId event data
  | .distribute e => w.distribute e
  | .publishReturns r e => w.publishReturns r e
  | .publishRaises r e => w.publishRaises r e
  | .take r => w.on r Replica.take
  | .resume r d ok => w.on r fun p => p.onManager (.resume d ok)

/-- A socket is connected once, under one user. -/
def ConnectsOnce (w : Cluster ρ) : ClusterEvent ρ → Prop
  | .connect r userId ws => (w.replica r).manager.ConnectsOnce (.connect userId ws)
  | _ => True

/-- The socket is connected, and none of its sends has failed. -/
def Stays (r : ρ) (userId : ℤ) (ws : WebSocket) (w : Cluster ρ) : Prop :=
  Live (w.replica r).manager.log userId ws ∧ ∀ d, .failed d ws ∉ (w.replica r).manager.log

instance (r : ρ) (userId : ℤ) (ws : WebSocket) (w : Cluster ρ) : Decidable (w.Stays r userId ws) :=
  have hall : (∀ x ∈ (w.replica r).manager.log, ∀ d ∈ x.failedOf ws,
      x ≠ .failed d ws) ↔ ∀ d, .failed d ws ∉ (w.replica r).manager.log := by
    constructor
    · exact fun h d hin => h _ hin d (by simp [LogEntry.failedOf]) rfl
    · exact fun h x hx d _ heq => h d (heq ▸ hx)
  decidable_of_iff _ (and_congr_right fun _ => hall)

/-- Every message in flight is handled. -/
def Quiet (w : Cluster ρ) : Prop :=
  w.publishing = [] ∧ ∀ r, (w.replica r).queue = [] ∧ (w.replica r).manager.deliveries = []

instance [Fintype ρ] (w : Cluster ρ) : Decidable w.Quiet := inferInstanceAs (Decidable (_ ∧ ∀ _, _))

end Cluster

/-! ### What a socket has received, and what is on the way to it -/

section

variable {μ : Type} [DecidableEq μ]

def LogEntry.isSent (ws : WebSocket) (payload : μ) : LogEntry μ → Bool
  | .sent _ ws' payload' => ws' = ws && payload' = payload
  | _ => false

def received (log : List (LogEntry μ)) (ws : WebSocket) (payload : μ) : ℕ :=
  log.countP (LogEntry.isSent ws payload)

def LocalDelivery.owes (ws : WebSocket) (payload : μ) (x : LocalDelivery μ) : Bool :=
  x.payload = payload && (x.sending :: x.todo).contains ws

namespace ConnectionManager

/-- Received, or on the way in a delivery. -/
def tally (m : ConnectionManager μ) (ws : WebSocket) (payload : μ) : ℕ :=
  received m.log ws payload + m.deliveries.countP (LocalDelivery.owes ws payload)

/-- No delivery is a broadcast. -/
def Local (m : ConnectionManager μ) : Prop := ∀ x ∈ m.deliveries, x.users = []

variable {m : ConnectionManager μ} {ws : WebSocket} {payload : μ} {d : ℕ}

omit [DecidableEq μ] in
theorem resume_of_find {x : LocalDelivery μ} (hlocal : m.Local)
    (hx : m.deliveries.find? (fun y => y.id = d) = some x) (ok : Bool) :
    m.resume d ok = match x.todo with
      | ws :: todo =>
        ⟨m.answered x ok, { x with
          sending := ws
          todo
          dead := if ok then x.dead else x.dead ++ [x.sending] } ::
            m.deliveries.filter fun y => y.id ≠ d⟩
      | [] =>
        ⟨(m.answered x ok).cleanUp d x.userId (if ok then x.dead else x.dead ++ [x.sending]),
          m.deliveries.filter fun y => y.id ≠ d⟩ := by
  have husers : x.users = [] := hlocal x (List.mem_of_find?_eq_some hx)
  unfold resume
  rw [hx]
  dsimp only
  cases x.todo with
  | cons ws todo => rfl
  | nil =>
    rw [husers]
    rfl

omit [DecidableEq μ] in
theorem resume_of_find_none (hx : m.deliveries.find? (fun y => y.id = d) = none) (ok : Bool) :
    m.resume d ok = m := by
  unfold resume
  simp only [hx]

omit [DecidableEq μ] in
theorem resume_local (hlocal : m.Local) (d : ℕ) (ok : Bool) : (m.resume d ok).Local := by
  cases hx : m.deliveries.find? fun y => y.id = d with
  | none =>
    rw [resume_of_find_none hx]
    exact hlocal
  | some x =>
    have husers : x.users = [] := hlocal x (List.mem_of_find?_eq_some hx)
    rw [resume_of_find hlocal hx]
    split
    · intro y hy
      rcases List.mem_cons.mp hy with rfl | hy
      · exact husers
      · exact hlocal y (mem_others hy).1
    · exact fun y hy => hlocal y (mem_others hy).1

omit [DecidableEq μ] in
theorem localSend_local (hlocal : m.Local) (u : ℤ) (payload : μ) :
    (m.localSend u payload).Local := by
  unfold localSend
  split
  · exact hlocal
  · intro y hy
    rcases List.mem_cons.mp hy with rfl | hy
    · rfl
    · exact hlocal y hy

theorem received_cleanUp {c : ManagerCore μ} {u : ℤ} {dead : List WebSocket} :
    received (c.cleanUp d u dead).log ws payload = received c.log ws payload := by
  induction dead generalizing c with
  | nil => rfl
  | cons ws' dead ih =>
    rw [ManagerCore.cleanUp, ih]
    exact List.countP_cons_of_neg (by simp [LogEntry.isSent])

omit [DecidableEq μ] in
theorem mem_cleanUp {c : ManagerCore μ} {u : ℤ} {dead : List WebSocket} {e : LogEntry μ}
    (he : e ∈ c.log) : e ∈ (c.cleanUp d u dead).log := by
  induction dead generalizing c with
  | nil => exact he
  | cons ws' dead ih => exact ih (List.mem_cons_of_mem _ he)

omit [DecidableEq μ] in
theorem answered_log (hlocal : m.Local) {x : LocalDelivery μ}
    (hx : m.deliveries.find? (fun y => y.id = d) = some x) (ok : Bool) {e : LogEntry μ}
    (he : e ∈ (m.answered x ok).log) : e ∈ (m.resume d ok).log := by
  rw [resume_of_find hlocal hx]
  split
  · exact he
  · exact mem_cleanUp he

omit [DecidableEq μ] in
theorem perm_others (h : m.Sound) {x : LocalDelivery μ}
    (hx : m.deliveries.find? (fun y => y.id = d) = some x) :
    m.deliveries.Perm (x :: m.deliveries.filter fun y => y.id ≠ d) := by
  obtain ⟨hmem, hid⟩ := find?_delivery hx
  obtain ⟨front, back, hsplit⟩ := List.append_of_mem hmem
  have hdistinct := h.distinct
  rw [hsplit, List.map_append, List.map_cons, List.nodup_middle, List.nodup_cons,
    ← List.map_append] at hdistinct
  have hother : ∀ y ∈ front ++ back, y.id ≠ d := by
    intro y hy heq
    exact hdistinct.1 (List.mem_map.mpr ⟨y, hy, heq.trans hid.symm⟩)
  have hfilter : m.deliveries.filter (fun y => y.id ≠ d) = front ++ back := by
    rw [hsplit, List.filter_append, List.filter_cons_of_neg (by simpa using hid),
      ← List.filter_append]
    exact List.filter_eq_self.mpr fun y hy => by simpa using hother y hy
  rw [hfilter, hsplit]
  exact List.perm_middle

theorem tally_connect (u : ℤ) (ws' : WebSocket) :
    (m.connect u ws').tally ws payload = m.tally ws payload := by
  unfold tally connect received
  rw [List.countP_cons_of_neg (by simp [LogEntry.isSent])]

theorem tally_disconnect (u : ℤ) (ws' : WebSocket) :
    (m.disconnect u ws').tally ws payload = m.tally ws payload := by
  unfold tally disconnect received
  rw [List.countP_cons_of_neg (by simp [LogEntry.isSent])]

/-- A delivery of the payload owes it to the socket, one of another payload does not. -/
theorem tally_localSend {u : ℤ} {payload' : μ}
    (hin : payload' = payload → ws ∈ m.registry.conns u) :
    (m.localSend u payload').tally ws payload =
      m.tally ws payload + if payload' = payload then 1 else 0 := by
  unfold localSend
  split
  next hnone =>
    have hne : payload' ≠ payload := by
      intro heq
      have hws := hin heq
      rw [hnone] at hws
      cases hws
    rw [if_neg hne]
    rfl
  next ws' todo hconns =>
    unfold tally
    dsimp only
    by_cases heq : payload' = payload
    · have hws := hin heq
      rw [hconns] at hws
      rw [if_pos heq, List.countP_cons_of_pos (by simpa [LocalDelivery.owes, heq] using hws)]
      omega
    · rw [if_neg heq, List.countP_cons_of_neg (by simp [LocalDelivery.owes, heq])]
      rfl

theorem received_answered {x : LocalDelivery μ} {ok : Bool}
    (hanswer : ok = false → ws ≠ x.sending) :
    received (m.answered x ok).log ws payload = received m.log ws payload +
      if ws = x.sending ∧ x.payload = payload then 1 else 0 := by
  cases ok with
  | true =>
    by_cases hws : ws = x.sending ∧ x.payload = payload
    · rw [if_pos hws]
      exact List.countP_cons_of_pos (by simp [LogEntry.isSent, hws.1, hws.2])
    · rw [if_neg hws]
      refine List.countP_cons_of_neg fun heq => hws ?_
      simp only [LogEntry.isSent, if_true, Bool.and_eq_true, decide_eq_true_eq] at heq
      exact ⟨heq.1.symm, heq.2⟩
  | false =>
    rw [if_neg fun hws => hanswer rfl hws.1]
    exact List.countP_cons_of_neg (by simp [LogEntry.isSent])

theorem countP_of_find (h : m.Sound) {x : LocalDelivery μ}
    (hx : m.deliveries.find? (fun y => y.id = d) = some x) :
    m.deliveries.countP (LocalDelivery.owes ws payload) =
      (m.deliveries.filter fun y => y.id ≠ d).countP (LocalDelivery.owes ws payload) +
        if x.owes ws payload then 1 else 0 := by
  rw [(perm_others h hx).countP_eq, List.countP_cons]

/-- An answer that is no failure of the socket leaves its tally. -/
theorem tally_resume (h : m.Sound) (hlocal : m.Local) (ok : Bool)
    (hok : .failed d ws ∉ (m.resume d ok).log) :
    (m.resume d ok).tally ws payload = m.tally ws payload := by
  cases hx : m.deliveries.find? fun y => y.id = d with
  | none => rw [resume_of_find_none hx]
  | some x =>
    obtain ⟨hmem, hid⟩ := find?_delivery hx
    have hanswer : ok = false → ws ≠ x.sending := by
      rintro rfl rfl
      refine hok (answered_log hlocal hx false ?_)
      rw [← hid]
      exact List.mem_cons_self
    have hlog : received (m.answered x ok).log ws payload = received m.log ws payload +
        if ws = x.sending ∧ x.payload = payload then 1 else 0 := received_answered hanswer
    have hcount : m.deliveries.countP (LocalDelivery.owes ws payload) =
        (m.deliveries.filter fun y => y.id ≠ d).countP (LocalDelivery.owes ws payload) +
          if x.owes ws payload then 1 else 0 := countP_of_find h hx
    have hdistinct := (h.awaits x hmem).distinct
    rw [resume_of_find hlocal hx]
    split
    next ws' todo htodo =>
      rw [htodo] at hdistinct
      unfold tally
      rw [hcount, List.countP_cons, hlog]
      have howes : (if ws = x.sending ∧ x.payload = payload then 1 else 0) +
          (if LocalDelivery.owes ws payload { x with
            sending := ws', todo, dead := if ok then x.dead else x.dead ++ [x.sending] }
            then 1 else 0) = if x.owes ws payload then 1 else 0 := by
        by_cases hp : x.payload = payload
        · by_cases hws : ws = x.sending
          · have hout : ws ∉ ws' :: todo := hws ▸ (List.nodup_cons.mp hdistinct).1
            rw [hws] at hout
            simp only [LocalDelivery.owes, hp, hws, htodo, List.mem_cons] at hout ⊢
            simpa using hout
          · simp [LocalDelivery.owes, hp, hws, htodo]
        · simp [LocalDelivery.owes, hp]
      omega
    next htodo =>
      unfold tally
      rw [received_cleanUp, hcount, hlog]
      dsimp only
      have howes : (if ws = x.sending ∧ x.payload = payload then 1 else 0) =
          if x.owes ws payload then 1 else 0 := by
        by_cases hp : x.payload = payload <;> by_cases hws : ws = x.sending <;>
          simp [LocalDelivery.owes, hp, hws, htodo]
      omega

end ConnectionManager

end

/-! ### One replica -/

namespace Replica

def Sound (p : Replica) : Prop := p.manager.Sound ∧ p.manager.Local

/-- Received, in a delivery, or still in the queue. -/
def ledger (p : Replica) (ws : WebSocket) (e : Envelope) : ℕ :=
  p.manager.tally ws e + p.queue.count e

def Knows (p : Replica) (e : Envelope) : Prop :=
  (∃ x ∈ p.manager.deliveries, x.payload = e) ∨ (∃ d ws, .sent d ws e ∈ p.manager.log) ∨
    e ∈ p.queue

variable {p : Replica} {e e' : Envelope} {ws : WebSocket}

theorem new_sound : Replica.new.Sound :=
  ⟨ConnectionManager.new_sound, fun _ h => (List.not_mem_nil h).elim⟩

theorem localSend_sound (h : p.Sound) (e : Envelope) : (p.localSend e).Sound :=
  ⟨ConnectionManager.localSend_sound h.1 e.userId e,
    ConnectionManager.localSend_local h.2 e.userId e⟩

theorem take_sound (h : p.Sound) : p.take.Sound := by
  unfold take
  split
  · exact h
  next e queue _ =>
    split
    · exact localSend_sound h e
    · exact h

theorem ledger_localSend (hin : e' = e → ws ∈ p.manager.registry.conns e.userId) :
    (p.localSend e').ledger ws e = p.ledger ws e + if e' = e then 1 else 0 := by
  unfold ledger localSend
  dsimp only
  rw [ConnectionManager.tally_localSend fun heq => heq ▸ hin heq]
  omega

theorem ledger_take (hin : ws ∈ p.manager.registry.conns e.userId) :
    p.take.ledger ws e = p.ledger ws e := by
  unfold take
  split
  · rfl
  next e' queue hqueue =>
    split
    · have hsend : (p.localSend e').ledger ws e = p.ledger ws e + if e' = e then 1 else 0 :=
        ledger_localSend fun _ => hin
      unfold ledger at hsend ⊢
      unfold localSend at hsend ⊢
      dsimp only at hsend ⊢
      rw [hqueue, List.count_cons] at hsend ⊢
      by_cases heq : e' = e
      · simp only [heq, beq_self_eq_true, if_true] at hsend ⊢
        omega
      · simp only [heq, beq_iff_eq, if_false] at hsend ⊢
        omega
    · rfl

theorem ledger_eq_zero (h : ¬p.Knows e) (ws : WebSocket) : p.ledger ws e = 0 := by
  have hlog : received p.manager.log ws e = 0 := by
    refine List.countP_eq_zero.mpr fun x hx hsent => h (Or.inr (Or.inl ?_))
    cases x with
    | sent d ws' payload =>
      simp only [LogEntry.isSent, Bool.and_eq_true, decide_eq_true_eq] at hsent
      exact ⟨d, ws', hsent.2 ▸ hx⟩
    | _ => cases hsent
  have hdeliveries : p.manager.deliveries.countP (LocalDelivery.owes ws e) = 0 := by
    refine List.countP_eq_zero.mpr fun x hx howes => h (Or.inl ⟨x, hx, ?_⟩)
    simp only [LocalDelivery.owes, Bool.and_eq_true, decide_eq_true_eq] at howes
    exact howes.1
  have hqueue : p.queue.count e = 0 :=
    List.count_eq_zero.mpr fun hin => h (Or.inr (Or.inr hin))
  unfold ledger ConnectionManager.tally
  omega

/-- A log entry that is no send shows no message. -/
theorem knows_of_logged {p' : Replica} {x : LogEntry Envelope} (hx : ∀ d ws, x ≠ .sent d ws e)
    (hdeliveries : p'.manager.deliveries = p.manager.deliveries)
    (hlog : p'.manager.log = x :: p.manager.log) (hqueue : p'.queue = p.queue)
    (h : p'.Knows e) : p.Knows e := by
  rcases h with hdelivery | ⟨d, ws, hsent⟩ | hin
  · rw [hdeliveries] at hdelivery
    exact Or.inl hdelivery
  · rw [hlog] at hsent
    exact Or.inr (Or.inl ⟨d, ws, (List.mem_cons.mp hsent).resolve_left (hx d ws).symm⟩)
  · rw [hqueue] at hin
    exact Or.inr (Or.inr hin)

theorem knows_localSend (h : (p.localSend e').Knows e) : e = e' ∨ p.Knows e := by
  unfold localSend ConnectionManager.localSend at h
  split at h
  · exact Or.inr h
  · rcases h with ⟨x, hx, hp⟩ | hrest
    · rcases List.mem_cons.mp hx with rfl | hx
      · exact Or.inl hp.symm
      · exact Or.inr (Or.inl ⟨x, hx, hp⟩)
    · exact Or.inr (Or.inr hrest)

theorem knows_take (h : p.take.Knows e) : p.Knows e := by
  unfold take at h
  split at h
  · exact h
  next e' queue hqueue =>
    split at h
    · have hsent : (p.localSend e').Knows e ∨ e ∈ queue := by
        rcases h with hdelivery | hlog | hin
        · exact Or.inl (Or.inl hdelivery)
        · exact Or.inl (Or.inr (Or.inl hlog))
        · exact Or.inr hin
      rcases hsent with hsent | hin
      · rcases knows_localSend hsent with rfl | hknows
        · exact Or.inr (Or.inr (hqueue ▸ List.mem_cons_self))
        · exact hknows
      · exact Or.inr (Or.inr (hqueue ▸ List.mem_cons_of_mem e' hin))
    · exact h

theorem mem_cleanUp_sent {c : ManagerCore Envelope} {d d' : ℕ} {u : ℤ} {dead : List WebSocket}
    (h : .sent d' ws e ∈ (c.cleanUp d u dead).log) : .sent d' ws e ∈ c.log := by
  induction dead generalizing c with
  | nil => exact h
  | cons ws' dead ih => exact (List.mem_cons.mp (ih h)).resolve_left (by simp)

theorem knows_resume (hlocal : p.manager.Local) {d : ℕ} {ok : Bool}
    (h : (p.onManager (.resume d ok)).Knows e) : p.Knows e := by
  unfold onManager ConnectionManager.step at h
  cases hx : p.manager.deliveries.find? fun y => y.id = d with
  | none =>
    simp only [ConnectionManager.resume_of_find_none hx] at h
    exact h
  | some x =>
    obtain ⟨hmem, _⟩ := ConnectionManager.find?_delivery hx
    have hanswer : ∀ d' ws', .sent d' ws' e ∈ (p.manager.answered x ok).log → p.Knows e := by
      intro d' ws' hsent
      rcases List.mem_cons.mp hsent with heq | hold
      · cases ok with
        | true =>
          cases heq
          exact Or.inl ⟨x, hmem, rfl⟩
        | false => cases heq
      · exact Or.inr (Or.inl ⟨d', ws', hold⟩)
    have hother : ∀ y ∈ p.manager.deliveries.filter (fun y => y.id ≠ d), y.payload = e →
        p.Knows e := fun y hy hp => Or.inl ⟨y, (ConnectionManager.mem_others hy).1, hp⟩
    simp only [ConnectionManager.resume_of_find hlocal hx] at h
    split at h
    · rcases h with ⟨y, hy, hp⟩ | ⟨d', ws', hsent⟩ | hin
      · rcases List.mem_cons.mp hy with rfl | hy
        · exact Or.inl ⟨x, hmem, hp⟩
        · exact hother y hy hp
      · exact hanswer d' ws' hsent
      · exact Or.inr (Or.inr hin)
    · rcases h with ⟨y, hy, hp⟩ | ⟨d', ws', hsent⟩ | hin
      · exact hother y hy hp
      · exact hanswer d' ws' (mem_cleanUp_sent hsent)
      · exact Or.inr (Or.inr hin)

end Replica

/-! ### The replicas together -/

namespace Cluster

variable {ρ : Type} [DecidableEq ρ] {w : Cluster ρ} {r r' : ρ} {ws : WebSocket} {e : Envelope}

def Sound (w : Cluster ρ) : Prop := ∀ r, (w.replica r).Sound

omit [DecidableEq ρ] in
/-- Envelopes in sight are of calls made so far. -/
def InSight (w : Cluster ρ) (e : Envelope) : Prop :=
  (∃ r, (w.replica r).Knows e) ∨ e ∈ w.published ∨ e ∈ w.distributed ∨
    ∃ r, (r, e) ∈ w.publishing ∨ (r, e) ∈ w.raised

omit [DecidableEq ρ] in
def Numbered (w : Cluster ρ) : Prop := ∀ e, w.InSight e → e.call < w.nextCall

theorem replica_on (w : Cluster ρ) (r r' : ρ) (f : Replica → Replica) :
    (w.on r f).replica r' = if r' = r then f (w.replica r') else w.replica r' := by
  show Function.update w.replica r (f (w.replica r)) r' = _
  rw [Function.update_apply]
  split
  next h => rw [h]
  next => rfl

theorem sound_on {f : Replica → Replica} (h : w.Sound) (hf : (f (w.replica r)).Sound) :
    (w.on r f).Sound := by
  intro r'
  rw [replica_on]
  split
  next heq =>
    rw [heq]
    exact hf
  next => exact h r'

theorem step_sound (w : Cluster ρ) (ev : ClusterEvent ρ) (h : w.Sound)
    (honce : w.ConnectsOnce ev) : (w.step ev).Sound := by
  cases ev with
  | connect r userId ws =>
    exact sound_on (f := fun p => p.onManager (.connect userId ws)) h
      ⟨ConnectionManager.connect_sound (h r).1 honce, (h r).2⟩
  | disconnect r userId ws =>
    exact sound_on (f := fun p => p.onManager (.disconnect userId ws)) h
      ⟨ConnectionManager.disconnect_sound (h r).1 userId ws, (h r).2⟩
  | sendToUser r userId event data => exact h
  | distribute e =>
    simp only [step, distribute]
    split
    · exact h
    · exact h
  | publishReturns r e =>
    simp only [step, publishReturns]
    split
    · exact h
    · exact h
  | publishRaises r e =>
    simp only [step, publishRaises]
    split
    · exact sound_on (f := fun p => p.localSend e) h (Replica.localSend_sound (h r) e)
    · exact h
  | take r => exact sound_on h (Replica.take_sound (h r))
  | resume r d ok =>
    exact sound_on (f := fun p => p.onManager (.resume d ok)) h
      ⟨ConnectionManager.resume_sound (h r).1 d ok, ConnectionManager.resume_local (h r).2 d ok⟩

omit [DecidableEq ρ] in
theorem start_sound : (start : Cluster ρ).Sound := fun _ => Replica.new_sound

section

omit [DecidableEq ρ]

theorem inSight_of_knows (h : (w.replica r).Knows e) : w.InSight e := Or.inl ⟨r, h⟩

theorem inSight_of_published (h : e ∈ w.published) : w.InSight e := Or.inr (Or.inl h)

theorem inSight_of_distributed (h : e ∈ w.distributed) : w.InSight e :=
  Or.inr (Or.inr (Or.inl h))

theorem inSight_of_publishing (h : (r, e) ∈ w.publishing) : w.InSight e :=
  Or.inr (Or.inr (Or.inr ⟨r, Or.inl h⟩))

theorem inSight_of_raised (h : (r, e) ∈ w.raised) : w.InSight e :=
  Or.inr (Or.inr (Or.inr ⟨r, Or.inr h⟩))

end

theorem inSight_on {f : Replica → Replica} (hf : ∀ e, (f (w.replica r)).Knows e → w.InSight e)
    (h : (w.on r f).InSight e) : w.InSight e := by
  rcases h with ⟨r', hknows⟩ | hrest
  · rw [replica_on] at hknows
    split at hknows
    next heq =>
      rw [heq] at hknows
      exact hf e hknows
    next => exact Or.inl ⟨r', hknows⟩
  · exact Or.inr hrest

omit [DecidableEq ρ] in
theorem inSight_distribute {e' : Envelope} (h : (w.distribute e').InSight e) : w.InSight e := by
  unfold distribute at h
  split at h
  next hpub =>
    rcases h with ⟨r', hdelivery | hlog | hin⟩ | hin | hin | hin
    · exact inSight_of_knows (Or.inl hdelivery)
    · exact inSight_of_knows (Or.inr (Or.inl hlog))
    · rcases List.mem_append.mp hin with hold | hnew
      · exact inSight_of_knows (Or.inr (Or.inr hold))
      · exact inSight_of_published (List.mem_singleton.mp hnew ▸ hpub)
    · exact inSight_of_published (List.mem_of_mem_erase hin)
    · rcases List.mem_cons.mp hin with rfl | hold
      · exact inSight_of_published hpub
      · exact inSight_of_distributed hold
    · exact Or.inr (Or.inr (Or.inr hin))
  next => exact h

theorem inSight_publishReturns {e' : Envelope} (h : (w.publishReturns r e').InSight e) :
    w.InSight e := by
  unfold publishReturns at h
  split at h
  · rcases h with hknows | hin | hin | ⟨r', hin | hin⟩
    · exact Or.inl hknows
    · exact inSight_of_published hin
    · exact inSight_of_distributed hin
    · exact inSight_of_publishing (List.mem_of_mem_erase hin)
    · exact inSight_of_raised hin
  · exact h

theorem inSight_publishRaises {e' : Envelope} (h : (w.publishRaises r e').InSight e) :
    w.InSight e := by
  unfold publishRaises at h
  split at h
  next hpub =>
    have hsight : w.InSight e' := inSight_of_publishing hpub
    rcases h with ⟨r', hknows⟩ | hin | hin | ⟨r', hin | hin⟩
    · refine inSight_on (r := r) (f := fun p => p.localSend e') (fun e₀ hk => ?_)
        (Or.inl ⟨r', hknows⟩)
      rcases Replica.knows_localSend hk with rfl | hold
      · exact hsight
      · exact inSight_of_knows hold
    · exact inSight_of_published hin
    · exact inSight_of_distributed hin
    · exact inSight_of_publishing (List.mem_of_mem_erase hin)
    · rcases List.mem_cons.mp hin with heq | hold
      · cases heq
        exact hsight
      · exact inSight_of_raised hold
  next => exact h

/-- What comes in sight in one step is the message of a new call. -/
theorem inSight_step {ev : ClusterEvent ρ} (hsound : w.Sound) (h : (w.step ev).InSight e) :
    w.InSight e ∨ e.call = w.nextCall ∧ (w.step ev).nextCall = w.nextCall + 1 := by
  cases ev with
  | connect r userId ws =>
    refine Or.inl (inSight_on (f := fun p => p.onManager (.connect userId ws))
      (fun e hknows => inSight_of_knows (r := r) ?_) h)
    exact Replica.knows_of_logged (p := w.replica r) (x := .connected userId ws)
      (fun _ _ heq => by cases heq) (by rfl) (by rfl) (by rfl) hknows
  | disconnect r userId ws =>
    refine Or.inl (inSight_on (f := fun p => p.onManager (.disconnect userId ws))
      (fun e hknows => inSight_of_knows (r := r) ?_) h)
    exact Replica.knows_of_logged (p := w.replica r) (x := .disconnected userId ws)
      (fun _ _ heq => by cases heq) (by rfl) (by rfl) (by rfl) hknows
  | sendToUser r userId event data =>
    rcases h with hknows | hin | hin | ⟨r', hin | hin⟩
    · exact Or.inl (Or.inl hknows)
    · rcases List.mem_cons.mp hin with rfl | hold
      · exact Or.inr ⟨rfl, rfl⟩
      · exact Or.inl (inSight_of_published hold)
    · exact Or.inl (inSight_of_distributed hin)
    · rcases List.mem_cons.mp hin with heq | hold
      · cases heq
        exact Or.inr ⟨rfl, rfl⟩
      · exact Or.inl (inSight_of_publishing hold)
    · exact Or.inl (inSight_of_raised hin)
  | distribute e' => exact Or.inl (inSight_distribute h)
  | publishReturns r e' => exact Or.inl (inSight_publishReturns h)
  | publishRaises r e' => exact Or.inl (inSight_publishRaises h)
  | take r =>
    exact Or.inl (inSight_on (fun e hknows => inSight_of_knows (Replica.knows_take hknows)) h)
  | resume r d ok =>
    exact Or.inl (inSight_on (f := fun p => p.onManager (.resume d ok))
      (fun e hknows => inSight_of_knows (Replica.knows_resume (hsound r).2 hknows)) h)

theorem nextCall_le (w : Cluster ρ) (ev : ClusterEvent ρ) : w.nextCall ≤ (w.step ev).nextCall := by
  cases ev with
  | sendToUser r userId event data => exact Nat.le_succ w.nextCall
  | distribute e =>
    simp only [step, distribute]
    split <;> exact le_refl _
  | publishReturns r e =>
    simp only [step, publishReturns]
    split <;> exact le_refl _
  | publishRaises r e =>
    simp only [step, publishRaises]
    split <;> exact le_refl _
  | _ => exact le_refl _

theorem step_numbered {ev : ClusterEvent ρ} (hsound : w.Sound) (h : w.Numbered) :
    (w.step ev).Numbered := by
  intro e he
  rcases inSight_step hsound he with hold | ⟨hcall, hnext⟩
  · exact (h e hold).trans_le (nextCall_le w ev)
  · omega

omit [DecidableEq ρ] in
theorem start_numbered : (start : Cluster ρ).Numbered := by
  intro e he
  rcases he with ⟨r, ⟨x, hx, _⟩ | ⟨d, ws, hx⟩ | hx⟩ | hx | hx | ⟨r, hx | hx⟩ <;> cases hx

/-- The books on one call `e` of the replica `r` and one socket on `r'`. -/
structure Accounted (r r' : ρ) (ws : WebSocket) (e : Envelope) (w : Cluster ρ) : Prop where
  ledger : (w.replica r').ledger ws e = w.distributed.count e + w.raised.count (r', e)
  message : w.published.count e + w.distributed.count e = 1
  caller : ∀ x, (x, e) ∈ w.publishing ∨ (x, e) ∈ w.raised → x = r
  single : w.publishing.count (r, e) + w.raised.count (r, e) ≤ 1
  outcome : (r, e) ∈ w.publishing ∨ (r, e) ∈ w.raised ∨ e ∈ w.distributed
  made : e.call < w.nextCall

omit [DecidableEq ρ] in
theorem count_cons_ite {α : Type*} [BEq α] [LawfulBEq α] [DecidableEq α] (a b : α) (l : List α) :
    (b :: l).count a = l.count a + if b = a then 1 else 0 := by
  rw [List.count_cons]
  simp only [beq_iff_eq]

theorem accounted_on {r₁ : ρ} {f : Replica → Replica} (h : w.Accounted r r' ws e)
    (hf : r' = r₁ → (f (w.replica r')).ledger ws e = (w.replica r').ledger ws e) :
    (w.on r₁ f).Accounted r r' ws e := by
  refine ⟨?_, h.message, h.caller, h.single, h.outcome, h.made⟩
  rw [replica_on]
  split
  next heq => exact (hf heq).trans h.ledger
  next => exact h.ledger

omit [DecidableEq ρ] in
theorem mem_conns_of_stays {userId : ℤ} (hsound : w.Sound) (h : w.Stays r' userId ws) :
    ws ∈ (w.replica r').manager.registry.conns userId :=
  ((hsound r').1.core.holds userId ws).mpr h.1

theorem distribute_accounted {e' : Envelope} (h : w.Accounted r r' ws e) :
    (w.distribute e').Accounted r r' ws e := by
  unfold distribute
  split
  next hpub =>
    have hledger : ((w.replica r').ledger ws e + if e' = e then 1 else 0) =
        (e' :: w.distributed).count e + w.raised.count (r', e) := by
      have hold := h.ledger
      rw [count_cons_ite]
      omega
    refine ⟨Eq.trans ?_ hledger, ?_, h.caller, h.single, ?_, h.made⟩
    · unfold Replica.ledger
      dsimp only
      rw [List.count_append, count_cons_ite, List.count_nil]
      omega
    · have hold := h.message
      rw [count_cons_ite]
      by_cases heq : e' = e
      · have hone : 0 < w.published.count e := List.count_pos_iff.mpr (heq ▸ hpub)
        rw [heq, List.count_erase_self, if_pos rfl]
        omega
      · rw [List.count_erase_of_ne fun hsame => heq hsame.symm, if_neg heq]
        omega
    · rcases h.outcome with hpublishing | hraised | hdone
      · exact Or.inl hpublishing
      · exact Or.inr (Or.inl hraised)
      · exact Or.inr (Or.inr (List.mem_cons_of_mem _ hdone))
  next => exact h

theorem publishReturns_accounted {r₁ : ρ} {e' : Envelope} (h : w.Accounted r r' ws e) :
    (w.publishReturns r₁ e').Accounted r r' ws e := by
  unfold publishReturns
  split
  next hdone =>
    refine ⟨h.ledger, h.message, fun x hx => ?_, ?_, ?_, h.made⟩
    · rcases hx with hx | hx
      · exact h.caller x (Or.inl (List.mem_of_mem_erase hx))
      · exact h.caller x (Or.inr hx)
    · have hle := (List.erase_sublist : (w.publishing.erase (r₁, e')).Sublist _).count_le (r, e)
      have hold := h.single
      dsimp only
      omega
    · by_cases hsame : (r, e) = (r₁, e')
      · cases hsame
        exact Or.inr (Or.inr hdone.2)
      · rcases h.outcome with hpublishing | hrest
        · exact Or.inl ((List.mem_erase_of_ne hsame).mpr hpublishing)
        · exact Or.inr hrest
  next => exact h

theorem publishRaises_accounted {r₁ : ρ} {e' : Envelope} (hsound : w.Sound)
    (hstays : w.Stays r' e.userId ws) (h : w.Accounted r r' ws e) :
    (w.publishRaises r₁ e').Accounted r r' ws e := by
  unfold publishRaises
  split
  next hpub =>
    have hin := mem_conns_of_stays hsound hstays
    refine ⟨?_, h.message, fun x hx => ?_, ?_, ?_, h.made⟩
    · have hold := h.ledger
      have hsend : ((w.replica r').localSend e').ledger ws e =
          (w.replica r').ledger ws e + if e' = e then 1 else 0 :=
        Replica.ledger_localSend fun _ => hin
      show ((w.on r₁ fun p => p.localSend e').replica r').ledger ws e =
        w.distributed.count e + ((r₁, e') :: w.raised).count (r', e)
      rw [replica_on, count_cons_ite]
      by_cases hr : r' = r₁
      · have hpair : (r₁, e') = (r', e) ↔ e' = e := by rw [hr, Prod.mk_right_inj]
        simp only [hpair, if_pos hr, hsend]
        omega
      · have hne : ¬(r₁, e') = (r', e) := fun hsame => hr (Prod.mk.inj hsame).1.symm
        rw [if_neg hr, if_neg hne]
        omega
    · rcases hx with hx | hx
      · exact h.caller x (Or.inl (List.mem_of_mem_erase hx))
      · rcases List.mem_cons.mp hx with heq | hold
        · cases heq
          exact h.caller _ (Or.inl hpub)
        · exact h.caller x (Or.inr hold)
    · have hold := h.single
      show (w.publishing.erase (r₁, e')).count (r, e) + ((r₁, e') :: w.raised).count (r, e) ≤ 1
      rw [count_cons_ite]
      by_cases hsame : (r₁, e') = (r, e)
      · have hone : 0 < w.publishing.count (r, e) := List.count_pos_iff.mpr (hsame ▸ hpub)
        rw [hsame, List.count_erase_self, if_pos rfl]
        omega
      · rw [List.count_erase_of_ne fun heq => hsame heq.symm, if_neg hsame]
        omega
    · by_cases hsame : (r, e) = (r₁, e')
      · exact Or.inr (Or.inl (hsame ▸ List.mem_cons_self))
      · rcases h.outcome with hpublishing | hraised | hdone
        · exact Or.inl ((List.mem_erase_of_ne hsame).mpr hpublishing)
        · exact Or.inr (Or.inl (List.mem_cons_of_mem _ hraised))
        · exact Or.inr (Or.inr hdone)
  next => exact h

theorem step_accounted {ev : ClusterEvent ρ} (hsound : w.Sound)
    (hstays : w.Stays r' e.userId ws) (hstays' : (w.step ev).Stays r' e.userId ws)
    (h : w.Accounted r r' ws e) : (w.step ev).Accounted r r' ws e := by
  cases ev with
  | connect r₁ userId ws' =>
    refine accounted_on (f := fun p => p.onManager (.connect userId ws')) h fun _ => ?_
    exact congrArg (· + _) (ConnectionManager.tally_connect userId ws')
  | disconnect r₁ userId ws' =>
    refine accounted_on (f := fun p => p.onManager (.disconnect userId ws')) h fun _ => ?_
    exact congrArg (· + _) (ConnectionManager.tally_disconnect userId ws')
  | sendToUser r₁ userId event data =>
    have hnew : ∀ x, ((x, e) : ρ × Envelope) ≠ (r₁, ⟨w.nextCall, userId, event, data⟩) := by
      intro x heq
      have hcall := congrArg Envelope.call (Prod.mk.inj heq).2
      exact absurd hcall h.made.ne
    have hne : (⟨w.nextCall, userId, event, data⟩ : Envelope) ≠ e := by
      intro heq
      exact hnew r₁ (by rw [heq])
    refine ⟨h.ledger, ?_, fun x hx => ?_, ?_, ?_, h.made.trans (Nat.lt_succ_self _)⟩
    · show List.count e (_ :: w.published) + _ = 1
      rw [List.count_cons_of_ne hne]
      exact h.message
    · rcases hx with hx | hx
      · exact h.caller x (Or.inl ((List.mem_cons.mp hx).resolve_left (hnew x)))
      · exact h.caller x (Or.inr hx)
    · show List.count (r, e) (_ :: w.publishing) + _ ≤ 1
      rw [List.count_cons_of_ne (hnew r).symm]
      exact h.single
    · rcases h.outcome with hpublishing | hrest
      · exact Or.inl (List.mem_cons_of_mem _ hpublishing)
      · exact Or.inr hrest
  | distribute e' => exact distribute_accounted h
  | publishReturns r₁ e' => exact publishReturns_accounted h
  | publishRaises r₁ e' => exact publishRaises_accounted hsound hstays h
  | take r₁ =>
    exact accounted_on h fun _ => Replica.ledger_take (mem_conns_of_stays hsound hstays)
  | resume r₁ d ok =>
    refine accounted_on (f := fun p => p.onManager (.resume d ok)) h fun hr => ?_
    have hok : .failed d ws ∉ ((w.replica r').manager.resume d ok).log := by
      have hlater := hstays'.2 d
      rw [step, replica_on, if_pos hr] at hlater
      exact hlater
    exact congrArg (· + _) (ConnectionManager.tally_resume (hsound r').1 (hsound r').2 ok hok)

theorem sendToUser_accounted (hnumbered : w.Numbered) (userId : ℤ) (event data : String) :
    (w.sendToUser r userId event data).Accounted r r' ws ⟨w.nextCall, userId, event, data⟩ := by
  set e : Envelope := ⟨w.nextCall, userId, event, data⟩
  have hout : ¬w.InSight e := fun hin => lt_irrefl _ (hnumbered e hin)
  have hpublished : w.published.count e = 0 :=
    List.count_eq_zero.mpr fun hin => hout (inSight_of_published hin)
  have hdistributed : w.distributed.count e = 0 :=
    List.count_eq_zero.mpr fun hin => hout (inSight_of_distributed hin)
  have hpublishing : ∀ x, (x, e) ∉ w.publishing := fun x hin => hout (inSight_of_publishing hin)
  have hraised : ∀ x, (x, e) ∉ w.raised := fun x hin => hout (inSight_of_raised hin)
  refine ⟨?_, ?_, fun x hx => ?_, ?_, Or.inl List.mem_cons_self, Nat.lt_succ_self _⟩
  · show (w.replica r').ledger ws e = w.distributed.count e + w.raised.count (r', e)
    rw [Replica.ledger_eq_zero fun hknows => hout (inSight_of_knows hknows), hdistributed,
      List.count_eq_zero.mpr (hraised r')]
  · show (e :: w.published).count e + w.distributed.count e = 1
    rw [List.count_cons_self, hpublished, hdistributed]
  · rcases hx with hx | hx
    · rcases List.mem_cons.mp hx with heq | hold
      · exact (Prod.mk.inj heq).1
      · exact absurd hold (hpublishing x)
    · exact absurd hx (hraised x)
  · show ((r, e) :: w.publishing).count (r, e) + w.raised.count (r, e) ≤ 1
    rw [List.count_cons_self, List.count_eq_zero.mpr (hpublishing r),
      List.count_eq_zero.mpr (hraised r)]

/-- With nothing in flight the books show what the socket has received. -/
theorem Accounted.settle (h : w.Accounted r r' ws e) (hquiet : w.Quiet) :
    received (w.replica r').manager.log ws e =
      (if e ∈ w.distributed then 1 else 0) + (if (r, e) ∈ w.raised ∧ r' = r then 1 else 0) := by
  have hledger := h.ledger
  rw [Replica.ledger, ConnectionManager.tally, (hquiet.2 r').1, (hquiet.2 r').2] at hledger
  have hdistributed : w.distributed.count e = if e ∈ w.distributed then 1 else 0 := by
    have hmessage := h.message
    split
    next hin =>
      have hpos := List.count_pos_iff.mpr hin
      omega
    next hout => exact List.count_eq_zero.mpr hout
  have hraised : w.raised.count (r', e) = if (r, e) ∈ w.raised ∧ r' = r then 1 else 0 := by
    split
    next hin =>
      have hpos := List.count_pos_iff.mpr hin.1
      have hsingle := h.single
      rw [hin.2]
      omega
    next hout =>
      refine List.count_eq_zero.mpr fun hin => hout ?_
      have hr := h.caller r' (Or.inr hin)
      exact ⟨hr ▸ hin, hr⟩
  rw [← hdistributed, ← hraised, ← hledger]
  simp

end Cluster

/-! ### Runs -/

section

variable {ρ : Type} [DecidableEq ρ]

theorem Cluster.run_accounted {w : Cluster ρ} {es : List (ClusterEvent ρ)} {r r' : ρ}
    {ws : WebSocket} {e : Envelope} (hsound : w.Sound)
    (honce : Along Cluster.step Cluster.ConnectsOnce w es)
    (hstays : Always Cluster.step (Cluster.Stays r' e.userId ws) w es)
    (h : w.Accounted r r' ws e) : (run Cluster.step w es).Accounted r r' ws e := by
  induction es generalizing w with
  | nil => exact h
  | cons ev es ih =>
    have hnext := Cluster.step_accounted hsound hstays.1 hstays.2.head h
    exact ih (Cluster.step_sound w ev hsound honce.1) honce.2 hstays.2 hnext

/-- The envelope of a call made after the events `pre`. -/
def callAfter (ρ : Type) [DecidableEq ρ] (pre : List (ClusterEvent ρ)) (userId : ℤ)
    (event data : String) : Envelope :=
  ⟨(run Cluster.step (Cluster.start : Cluster ρ) pre).nextCall, userId, event, data⟩

/-- A socket that stays gets the event once if the publish returns. If it raises,
the socket gets it once for the distribution, where there was one, and once by
the fallback, on the calling replica. -/
theorem delivered_across_replicas (pre suf : List (ClusterEvent ρ)) (r r' : ρ) (userId : ℤ)
    (event data : String) (ws : WebSocket)
    (honce : Along Cluster.step Cluster.ConnectsOnce .start
      (pre ++ .sendToUser r userId event data :: suf))
    (hstays : Always Cluster.step (Cluster.Stays r' userId ws) (run Cluster.step .start pre)
      (.sendToUser r userId event data :: suf))
    (hquiet : (run Cluster.step .start (pre ++ .sendToUser r userId event data :: suf)).Quiet) :
    let w := run Cluster.step .start (pre ++ .sendToUser r userId event data :: suf)
    let e := callAfter ρ pre userId event data
    ((r, e) ∉ w.raised → received (w.replica r').manager.log ws e = 1) ∧
      ((r, e) ∈ w.raised → received (w.replica r').manager.log ws e =
        (if e ∈ w.distributed then 1 else 0) + (if r' = r then 1 else 0)) := by
  intro w e
  obtain ⟨hpre, hcall, hsuf⟩ := along_append.mp honce
  set w₀ := run Cluster.step .start pre
  have hbefore : w₀.Sound ∧ w₀.Numbered :=
    run_invariant (I := fun v : Cluster ρ => v.Sound ∧ v.Numbered)
      (fun v ev h hev => ⟨Cluster.step_sound v ev h.1 hev, Cluster.step_numbered h.1 h.2⟩)
      ⟨Cluster.start_sound, Cluster.start_numbered⟩ hpre
  have hsound : (w₀.step (.sendToUser r userId event data)).Sound :=
    Cluster.step_sound w₀ _ hbefore.1 hcall
  have hopen : (w₀.step (.sendToUser r userId event data)).Accounted r r' ws e :=
    Cluster.sendToUser_accounted hbefore.2 userId event data
  have hend : (run Cluster.step (w₀.step (.sendToUser r userId event data)) suf).Accounted
      r r' ws e := Cluster.run_accounted hsound hsuf hstays.2 hopen
  have hw : w = run Cluster.step (w₀.step (.sendToUser r userId event data)) suf := by
    rw [← run_cons, ← run_append]
  rw [← hw] at hend
  have hsettle := hend.settle hquiet
  constructor
  · intro hreturned
    have hdistributed : e ∈ w.distributed := by
      rcases hend.outcome with hpublishing | hraised | hdone
      · rw [hquiet.1] at hpublishing
        cases hpublishing
      · exact absurd hraised hreturned
      · exact hdone
    rw [hsettle, if_pos hdistributed, if_neg fun h => hreturned h.1]
  · intro hraised
    rw [hsettle]
    simp only [hraised, true_and]

end

def samplePush : Envelope := ⟨0, 1, "booking_update", "\x7b\x7d"⟩

/-- The guest is connected to one replica, the booking is confirmed on the other. -/
def connectedElsewhere : List (ClusterEvent Bool) := [.connect true 1 7]

def publishedAndTaken : List (ClusterEvent Bool) :=
  [.distribute samplePush, .publishReturns false samplePush, .take true, .take false,
    .resume true 0 true]

theorem connectedElsewhere_once (suf : List (ClusterEvent Bool))
    (hsuf : ∀ ev ∈ suf, ∀ r u ws, ev ≠ .connect r u ws) :
    Along Cluster.step Cluster.ConnectsOnce .start (connectedElsewhere ++
      .sendToUser false 1 "booking_update" "\x7b\x7d" :: suf) := by
  refine ⟨fun _ hin => (List.not_mem_nil hin).elim, trivial, ?_⟩
  refine along_of_forall fun w ev hev => ?_
  cases ev with
  | connect r u ws => exact absurd rfl (hsuf _ hev r u ws)
  | _ => trivial

theorem delivered_across_replicas_published :
    received ((run Cluster.step .start (connectedElsewhere ++
      .sendToUser false 1 "booking_update" "\x7b\x7d" :: publishedAndTaken)).replica
        true).manager.log 7 (callAfter Bool connectedElsewhere 1 "booking_update" "\x7b\x7d") = 1 :=
  (delivered_across_replicas connectedElsewhere publishedAndTaken false true 1 "booking_update"
    "\x7b\x7d" 7 (connectedElsewhere_once publishedAndTaken (by simp [publishedAndTaken]))
    (by decide +kernel) (by decide +kernel)).1 (by decide +kernel)

def neverPublished : List (ClusterEvent Bool) := [.publishRaises false samplePush]

/-- The publish raises before Redis has the message: the fallback reaches no socket. -/
theorem undistributed_push_lost :
    Along Cluster.step Cluster.ConnectsOnce .start (connectedElsewhere ++
        .sendToUser false 1 "booking_update" "\x7b\x7d" :: neverPublished) ∧
      Always Cluster.step (Cluster.Stays true 1 7) (run Cluster.step .start connectedElsewhere)
        (.sendToUser false 1 "booking_update" "\x7b\x7d" :: neverPublished) ∧
      (run Cluster.step .start (connectedElsewhere ++
        .sendToUser false 1 "booking_update" "\x7b\x7d" :: neverPublished)).Quiet ∧
      received ((run Cluster.step .start (connectedElsewhere ++
        .sendToUser false 1 "booking_update" "\x7b\x7d" :: neverPublished)).replica
          true).manager.log 7
        (callAfter Bool connectedElsewhere 1 "booking_update" "\x7b\x7d") = 0 :=
  ⟨connectedElsewhere_once neverPublished (by simp [neverPublished]), by decide +kernel⟩

end HotelMs
