import HotelMs.Lib.Dict
import HotelMs.Lib.Runs
import Mathlib.Logic.Function.Basic

/-!
# The registry of WebSockets

`ConnectionManager` of `services/websocket.py` on one replica. A delivery is
suspended at every send; between two awaits nothing else runs. The log is not in
the code: it says what has happened so far, newest first.
-/

namespace HotelMs

open Runs

/-- A `WebSocket` object, by its identity. -/
abbrev WebSocket := ℕ

/-- `_connections`: the dictionary refers to list objects. A delivery may hold a
list object that has left the dictionary. -/
structure Registry where
  connections : Dict ℤ ℕ
  lists : ℕ → List WebSocket
  nextList : ℕ

namespace Registry

def empty : Registry := ⟨Dict.empty, fun _ => [], 0⟩

/-- `self._connections.get(user_id, [])` -/
def conns (g : Registry) (userId : ℤ) : List WebSocket :=
  ((g.connections.get userId).map g.lists).getD []

-- the dictionary is a `defaultdict`: a new user gets a new list
def append (g : Registry) (userId : ℤ) (ws : WebSocket) : Registry :=
  match g.connections.get userId with
  | some l => { g with lists := Function.update g.lists l (g.lists l ++ [ws]) }
  | none =>
    { connections := g.connections.setDefault userId g.nextList
      lists := Function.update g.lists g.nextList [ws]
      nextList := g.nextList + 1 }

/-- `_remove` -/
def remove (g : Registry) (userId : ℤ) (ws : WebSocket) : Registry :=
  match g.connections.get userId with
  | some l =>
    let rest := (g.lists l).erase ws
    { g with
      connections := if rest = [] then g.connections.pop userId else g.connections
      lists := Function.update g.lists l rest }
  | none => g

end Registry

/-- A delivery that awaits a send. `users` are the pairs of the snapshot of
`_local_broadcast` whose turn is still to come; `_local_send` has none. -/
structure LocalDelivery (μ : Type) where
  id : ℕ
  payload : μ
  userId : ℤ
  sending : WebSocket
  todo : List WebSocket
  dead : List WebSocket
  users : List (ℤ × ℕ)
  deriving DecidableEq

inductive LogEntry (μ : Type)
  | connected (userId : ℤ) (ws : WebSocket)
  | disconnected (userId : ℤ) (ws : WebSocket)
  | sent (delivery : ℕ) (ws : WebSocket) (payload : μ)
  | failed (delivery : ℕ) (ws : WebSocket)
  | cleaned (delivery : ℕ) (userId : ℤ) (ws : WebSocket)
  deriving DecidableEq

structure ManagerCore (μ : Type) where
  registry : Registry
  nextDelivery : ℕ
  log : List (LogEntry μ)

structure ConnectionManager (μ : Type) extends ManagerCore μ where
  deliveries : List (LocalDelivery μ)

inductive ManagerEvent (μ : Type)
  | connect (userId : ℤ) (ws : WebSocket)
  | disconnect (userId : ℤ) (ws : WebSocket)
  | localSend (userId : ℤ) (payload : μ)
  | localBroadcast (payload : μ)
  | resume (delivery : ℕ) (ok : Bool)

/-- `for ws in dead` -/
def ManagerCore.cleanUp {μ : Type} (c : ManagerCore μ) (d : ℕ) (userId : ℤ) :
    List WebSocket → ManagerCore μ
  | [] => c
  | ws :: dead =>
    cleanUp { c with
      registry := c.registry.remove userId ws
      log := .cleaned d userId ws :: c.log } d userId dead

namespace ConnectionManager

variable {μ : Type}

def new : ConnectionManager μ := ⟨⟨.empty, 0, []⟩, []⟩

def connect (m : ConnectionManager μ) (userId : ℤ) (ws : WebSocket) : ConnectionManager μ :=
  { m with registry := m.registry.append userId ws, log := .connected userId ws :: m.log }

def disconnect (m : ConnectionManager μ) (userId : ℤ) (ws : WebSocket) : ConnectionManager μ :=
  { m with registry := m.registry.remove userId ws, log := .disconnected userId ws :: m.log }

/-- `for user_id, conns in ...`: the list of a user is read when the turn comes. -/
def turn (m : ConnectionManager μ) (d : ℕ) (payload : μ) :
    List (ℤ × ℕ) → ConnectionManager μ
  | [] => m
  | (userId, l) :: users =>
    match m.registry.lists l with
    | [] => m.turn d payload users
    | ws :: todo =>
      { m with deliveries := ⟨d, payload, userId, ws, todo, [], users⟩ :: m.deliveries }

def localSend (m : ConnectionManager μ) (userId : ℤ) (payload : μ) : ConnectionManager μ :=
  match m.registry.conns userId with
  | [] => { m with nextDelivery := m.nextDelivery + 1 }
  | ws :: todo =>
    { m with
      deliveries := ⟨m.nextDelivery, payload, userId, ws, todo, [], []⟩ :: m.deliveries
      nextDelivery := m.nextDelivery + 1 }

def localBroadcast (m : ConnectionManager μ) (payload : μ) : ConnectionManager μ :=
  turn { m with nextDelivery := m.nextDelivery + 1 } m.nextDelivery payload
    m.registry.connections.entries

/-- The awaited send of `x` returns or raises. -/
def answered (m : ConnectionManager μ) (x : LocalDelivery μ) (ok : Bool) : ManagerCore μ :=
  { m.toManagerCore with
    log := (if ok then .sent x.id x.sending x.payload else .failed x.id x.sending) :: m.log }

/-- Then the delivery runs to its next send, or to its end. -/
def resume (m : ConnectionManager μ) (d : ℕ) (ok : Bool) : ConnectionManager μ :=
  match m.deliveries.find? fun x => x.id = d with
  | none => m
  | some x =>
    let others := m.deliveries.filter fun y => y.id ≠ d
    let dead := if ok then x.dead else x.dead ++ [x.sending]
    match x.todo with
    | ws :: todo => ⟨m.answered x ok, { x with sending := ws, todo, dead } :: others⟩
    | [] => turn ⟨(m.answered x ok).cleanUp d x.userId dead, others⟩ d x.payload x.users

def step (m : ConnectionManager μ) : ManagerEvent μ → ConnectionManager μ
  | .connect userId ws => m.connect userId ws
  | .disconnect userId ws => m.disconnect userId ws
  | .localSend userId payload => m.localSend userId payload
  | .localBroadcast payload => m.localBroadcast payload
  | .resume d ok => m.resume d ok

def connectedUsers (m : ConnectionManager μ) : ℕ := m.registry.connections.entries.length

/-- A socket is connected once, under one user. -/
def ConnectsOnce (m : ConnectionManager μ) : ManagerEvent μ → Prop
  | .connect _ ws => ∀ userId, .connected userId ws ∉ m.log
  | _ => True

end ConnectionManager

/-- Connected for the user, and since then neither disconnected nor removed by the
clean-up of a delivery in which its own send failed. -/
def Live {μ : Type} : List (LogEntry μ) → ℤ → WebSocket → Prop
  | [], _, _ => False
  | .connected u' ws' :: log, u, ws => (u' = u ∧ ws' = ws) ∨ Live log u ws
  | .disconnected u' ws' :: log, u, ws => ¬(u' = u ∧ ws' = ws) ∧ Live log u ws
  | .cleaned d u' ws' :: log, u, ws => ¬(u' = u ∧ ws' = ws ∧ .failed d ws ∈ log) ∧ Live log u ws
  | .sent _ _ _ :: log, u, ws => Live log u ws
  | .failed _ _ :: log, u, ws => Live log u ws

instance decidableLive {μ : Type} [DecidableEq μ] :
    ∀ (log : List (LogEntry μ)) (u : ℤ) (ws : WebSocket), Decidable (Live log u ws)
  | [], _, _ => inferInstanceAs (Decidable False)
  | .connected _ _ :: log, u, ws =>
    have := decidableLive log u ws
    inferInstanceAs (Decidable (_ ∨ _))
  | .disconnected _ _ :: log, u, ws =>
    have := decidableLive log u ws
    inferInstanceAs (Decidable (_ ∧ _))
  | .cleaned _ _ _ :: log, u, ws =>
    have := decidableLive log u ws
    inferInstanceAs (Decidable (_ ∧ _))
  | .sent _ _ _ :: log, u, ws => decidableLive log u ws
  | .failed _ _ :: log, u, ws => decidableLive log u ws

/-- What the registry holds, and what no delivery has taken out of it. -/
structure ConnectionManager.Exact {μ : Type} (m : ConnectionManager μ) : Prop where
  once : ∀ u, (m.registry.conns u).Nodup
  holds : ∀ u ws, ws ∈ m.registry.conns u ↔ Live m.log u ws
  filled : ∀ u l, m.registry.connections.get u = some l → m.registry.lists l ≠ []
  users : m.connectedUsers = {u | ∃ ws, Live m.log u ws}.ncard
  spared : ∀ d u ws payload, .sent d ws payload ∈ m.log → .cleaned d u ws ∉ m.log

/-! ### The dictionary and its lists -/

namespace Registry

/-- Users have lists of their own, none of them empty. -/
structure Sound (g : Registry) : Prop where
  below : ∀ u l, g.connections.get u = some l → l < g.nextList
  apart : ∀ u u' l, g.connections.get u = some l → g.connections.get u' = some l → u = u'
  filled : ∀ u l, g.connections.get u = some l → g.lists l ≠ []

/-- A list object that was the user's at some time is so still, or it is empty. -/
def Refers (g : Registry) (u : ℤ) (l : ℕ) : Prop :=
  l < g.nextList ∧ (g.lists l ≠ [] → g.connections.get u = some l)

variable {g : Registry} {u u' : ℤ} {l : ℕ} {ws : WebSocket}

theorem conns_of_get (h : g.connections.get u = some l) : g.conns u = g.lists l := by
  rw [conns, h]
  rfl

theorem conns_of_get_none (h : g.connections.get u = none) : g.conns u = [] := by
  rw [conns, h]
  rfl

theorem Sound.refers (h : g.Sound) (hget : g.connections.get u = some l) : g.Refers u l :=
  ⟨h.below u l hget, fun _ => hget⟩

theorem Sound.conns_ne_nil (h : g.Sound) : g.conns u ≠ [] ↔ (g.connections.get u).isSome := by
  cases hget : g.connections.get u with
  | none => simp [conns_of_get_none hget]
  | some l =>
    rw [conns_of_get hget]
    exact iff_of_true (h.filled u l hget) rfl

theorem sound_empty : Registry.empty.Sound :=
  ⟨fun _ _ h => (by cases h), fun _ _ _ h => (by cases h), fun _ _ h => (by cases h)⟩

theorem conns_update (h : g.Sound) (hget : g.connections.get u = some l) (hne : u' ≠ u)
    (ls : List WebSocket) :
    ((g.connections.get u').map (Function.update g.lists l ls)).getD [] = g.conns u' := by
  cases hget' : g.connections.get u' with
  | none => exact (conns_of_get_none hget').symm
  | some l' =>
    have hl : l' ≠ l := by
      rintro rfl
      exact hne (h.apart u' u l' hget' hget)
    rw [conns_of_get hget', Option.map_some, Function.update_of_ne hl]
    rfl

theorem conns_update_self (hget : g.connections.get u = some l) (ls : List WebSocket) :
    ((g.connections.get u).map (Function.update g.lists l ls)).getD [] = ls := by
  rw [hget]
  exact Function.update_self ..

theorem append_of_get (hget : g.connections.get u = some l) : g.append u ws =
    { g with lists := Function.update g.lists l (g.lists l ++ [ws]) } := by
  rw [append, hget]

theorem append_of_get_none (hget : g.connections.get u = none) : g.append u ws =
    { connections := g.connections.setDefault u g.nextList
      lists := Function.update g.lists g.nextList [ws]
      nextList := g.nextList + 1 } := by
  rw [append, hget]

theorem remove_of_get (hget : g.connections.get u = some l) : g.remove u ws =
    { g with
      connections := if (g.lists l).erase ws = [] then g.connections.pop u else g.connections
      lists := Function.update g.lists l ((g.lists l).erase ws) } := by
  rw [remove, hget]

theorem remove_of_get_none (hget : g.connections.get u = none) : g.remove u ws = g := by
  rw [remove, hget]

theorem conns_append (h : g.Sound) : (g.append u ws).conns u' =
    if u' = u then g.conns u ++ [ws] else g.conns u' := by
  cases hget : g.connections.get u with
  | some l =>
    rw [append_of_get hget]
    split
    next hu =>
      subst hu
      rw [conns_of_get hget]
      exact conns_update_self hget _
    next hu => exact conns_update h hget hu _
  | none =>
    rw [append_of_get_none hget, conns, Dict.get_setDefault, hget]
    split
    next hu =>
      subst hu
      rw [conns_of_get_none hget]
      exact Function.update_self ..
    next hu =>
      cases hget' : g.connections.get u' with
      | none => exact (conns_of_get_none hget').symm
      | some l' =>
        have hl : l' ≠ g.nextList := (h.below u' l' hget').ne
        rw [conns_of_get hget', Option.map_some]
        exact Function.update_of_ne hl ..

theorem conns_remove (h : g.Sound) : (g.remove u ws).conns u' =
    if u' = u then (g.conns u).erase ws else g.conns u' := by
  cases hget : g.connections.get u with
  | none =>
    rw [remove_of_get_none hget, conns_of_get_none hget]
    split
    next hu =>
      subst hu
      exact conns_of_get_none hget
    next => rfl
  | some l =>
    rw [remove_of_get hget, conns_of_get hget]
    by_cases hrest : (g.lists l).erase ws = []
    · rw [if_pos hrest, conns, Dict.get_pop]
      split
      · rw [hrest]
        rfl
      next hu => exact conns_update h hget hu _
    · rw [if_neg hrest]
      split
      next hu =>
        subst hu
        exact conns_update_self hget _
      next hu => exact conns_update h hget hu _

theorem Sound.append (h : g.Sound) : (g.append u ws).Sound := by
  cases hget : g.connections.get u with
  | some l =>
    rw [append_of_get hget]
    refine ⟨h.below, h.apart, fun u' l' hget' => ?_⟩
    by_cases hl : l' = l
    · subst hl
      simp
    · show Function.update g.lists l _ l' ≠ []
      rw [Function.update_of_ne hl]
      exact h.filled u' l' hget'
  | none =>
    have hnew : ∀ u' l', (g.connections.setDefault u g.nextList).get u' = some l' →
        (u' = u ∧ l' = g.nextList) ∨ (u' ≠ u ∧ g.connections.get u' = some l') := by
      intro u' l' hget'
      rw [Dict.get_setDefault, hget] at hget'
      split at hget'
      next hu => exact Or.inl ⟨hu, (Option.some.inj hget').symm⟩
      next hu => exact Or.inr ⟨hu, hget'⟩
    rw [append_of_get_none hget]
    refine ⟨fun u' l' hget' => ?_, fun u₁ u₂ l' h₁ h₂ => ?_, fun u' l' hget' => ?_⟩
    · rcases hnew u' l' hget' with ⟨_, rfl⟩ | ⟨_, hold⟩
      · exact Nat.lt_succ_self _
      · exact (h.below u' l' hold).trans (Nat.lt_succ_self _)
    · rcases hnew u₁ l' h₁ with ⟨rfl, rfl⟩ | ⟨_, hold₁⟩
      · rcases hnew u₂ _ h₂ with ⟨rfl, _⟩ | ⟨_, hold₂⟩
        · rfl
        · exact absurd rfl (h.below u₂ _ hold₂).ne
      · rcases hnew u₂ l' h₂ with ⟨rfl, rfl⟩ | ⟨_, hold₂⟩
        · exact absurd rfl (h.below u₁ _ hold₁).ne
        · exact h.apart u₁ u₂ l' hold₁ hold₂
    · rcases hnew u' l' hget' with ⟨_, rfl⟩ | ⟨_, hold⟩
      · simp
      · show Function.update g.lists g.nextList _ l' ≠ []
        rw [Function.update_of_ne (h.below u' l' hold).ne]
        exact h.filled u' l' hold

theorem Sound.remove (h : g.Sound) : (g.remove u ws).Sound := by
  cases hget : g.connections.get u with
  | none =>
    rw [remove_of_get_none hget]
    exact h
  | some l =>
    have hold : ∀ u' l', (g.remove u ws).connections.get u' = some l' →
        g.connections.get u' = some l' ∧ (l' = l → (g.lists l).erase ws ≠ []) := by
      intro u' l' hget'
      rw [remove_of_get hget] at hget'
      by_cases hrest : (g.lists l).erase ws = []
      · rw [if_pos hrest, Dict.get_pop] at hget'
        split at hget'
        · cases hget'
        next hu =>
          refine ⟨hget', ?_⟩
          rintro rfl
          exact absurd (h.apart u' u l' hget' hget) hu
      · rw [if_neg hrest] at hget'
        exact ⟨hget', fun _ => hrest⟩
    have hlists : (g.remove u ws).lists = Function.update g.lists l ((g.lists l).erase ws) ∧
        (g.remove u ws).nextList = g.nextList := by
      rw [remove_of_get hget]
      exact ⟨rfl, rfl⟩
    refine ⟨fun u' l' hget' => ?_, fun u₁ u₂ l' h₁ h₂ => ?_, fun u' l' hget' => ?_⟩
    · rw [hlists.2]
      exact h.below u' l' (hold u' l' hget').1
    · exact h.apart u₁ u₂ l' (hold u₁ l' h₁).1 (hold u₂ l' h₂).1
    · rw [hlists.1]
      by_cases hl : l' = l
      · subst hl
        rw [Function.update_self]
        exact (hold u' l' hget').2 rfl
      · rw [Function.update_of_ne hl]
        exact h.filled u' l' (hold u' l' hget').1

theorem Refers.append (h : g.Sound) (hr : g.Refers u' l) : (g.append u ws).Refers u' l := by
  cases hget : g.connections.get u with
  | some l₀ =>
    rw [append_of_get hget]
    refine ⟨hr.1, fun hne => ?_⟩
    by_cases hl : l = l₀
    · subst hl
      exact hr.2 (h.filled u l hget)
    · dsimp only at hne
      rw [Function.update_of_ne hl] at hne
      exact hr.2 hne
  | none =>
    rw [append_of_get_none hget]
    refine ⟨hr.1.trans (Nat.lt_succ_self _), fun hne => ?_⟩
    dsimp only at hne ⊢
    rw [Function.update_of_ne hr.1.ne] at hne
    have hget' := hr.2 hne
    rw [Dict.get_setDefault, if_neg, hget']
    rintro rfl
    rw [hget] at hget'
    cases hget'

theorem Refers.remove (h : g.Sound) (hr : g.Refers u' l) : (g.remove u ws).Refers u' l := by
  cases hget : g.connections.get u with
  | none =>
    rw [remove_of_get_none hget]
    exact hr
  | some l₀ =>
    rw [remove_of_get hget]
    refine ⟨hr.1, fun hne => ?_⟩
    dsimp only at hne ⊢
    by_cases hl : l = l₀
    · subst hl
      rw [Function.update_self] at hne
      rw [if_neg hne]
      exact hr.2 (h.filled u l hget)
    · rw [Function.update_of_ne hl] at hne
      have hget' := hr.2 hne
      split
      · rw [Dict.get_pop, if_neg, hget']
        rintro rfl
        exact hl (Option.some.inj (hget'.symm.trans hget))
      · exact hget'

end Registry

/-! ### The log -/

section

variable {μ : Type} {log : List (LogEntry μ)} {d : ℕ} {u : ℤ} {ws : WebSocket}

/-- The delivery has had an answer from the socket. -/
def Touched (log : List (LogEntry μ)) (d : ℕ) (ws : WebSocket) : Prop :=
  .failed d ws ∈ log ∨ ∃ payload, .sent d ws payload ∈ log

theorem connected_of_live (h : Live log u ws) : .connected u ws ∈ log := by
  induction log with
  | nil => exact h.elim
  | cons e log ih =>
    cases e with
    | connected u' ws' =>
      rcases h with ⟨rfl, rfl⟩ | h
      · exact List.mem_cons_self
      · exact List.mem_cons_of_mem _ (ih h)
    | disconnected u' ws' => exact List.mem_cons_of_mem _ (ih h.2)
    | cleaned d' u' ws' => exact List.mem_cons_of_mem _ (ih h.2)
    | sent d' ws' payload => exact List.mem_cons_of_mem _ (ih h)
    | failed d' ws' => exact List.mem_cons_of_mem _ (ih h)

end

namespace ManagerCore

variable {μ : Type}

/-- The registry is what the log says, and the log is in order. -/
structure Sound (c : ManagerCore μ) : Prop where
  registry : c.registry.Sound
  once : ∀ u, (c.registry.conns u).Nodup
  holds : ∀ u ws, ws ∈ c.registry.conns u ↔ Live c.log u ws
  oneUser : ∀ u u' ws, .connected u ws ∈ c.log → .connected u' ws ∈ c.log → u = u'
  begun : ∀ d ws, Touched c.log d ws → d < c.nextDelivery
  cleaned : ∀ d u ws, .cleaned d u ws ∈ c.log →
    .failed d ws ∈ c.log ∧ ∀ payload, .sent d ws payload ∉ c.log

/-- From `c` to `c'` only the delivery `d` has had answers. -/
structure Onward (d : ℕ) (c c' : ManagerCore μ) : Prop where
  next : c.nextDelivery ≤ c'.nextDelivery
  refers : ∀ u l, c.registry.Refers u l → c'.registry.Refers u l
  connected : ∀ u ws, .connected u ws ∈ c.log → .connected u ws ∈ c'.log
  failed : ∀ d' ≠ d, ∀ ws, .failed d' ws ∈ c'.log ↔ .failed d' ws ∈ c.log
  sent : ∀ d' ≠ d, ∀ ws payload, .sent d' ws payload ∈ c'.log ↔ .sent d' ws payload ∈ c.log

/-- The users whose turn in the delivery `d` is still to come. -/
structure Underway (c : ManagerCore μ) (d : ℕ) (users : List (ℤ × ℕ)) : Prop where
  begun : d < c.nextDelivery
  distinct : (users.map Prod.fst).Nodup
  refers : ∀ x ∈ users, c.registry.Refers x.1 x.2
  past : ∀ ws, Touched c.log d ws → ∃ u, .connected u ws ∈ c.log ∧ u ∉ users.map Prod.fst

structure Awaits (c : ManagerCore μ) (x : LocalDelivery μ) : Prop where
  underway : c.Underway x.id x.users
  past : x.userId ∉ x.users.map Prod.fst
  fresh : ∀ ws ∈ x.sending :: x.todo, ¬Touched c.log x.id ws
  distinct : (x.sending :: x.todo).Nodup
  own : ∀ ws ∈ x.sending :: x.todo, .connected x.userId ws ∈ c.log
  dead : ∀ ws ∈ x.dead, .failed x.id ws ∈ c.log ∧ ∀ payload, .sent x.id ws payload ∉ c.log

variable {c c' c'' : ManagerCore μ} {d : ℕ}

theorem Onward.refl (d : ℕ) (c : ManagerCore μ) : Onward d c c :=
  ⟨le_refl _, fun _ _ h => h, fun _ _ h => h, fun _ _ _ => Iff.rfl, fun _ _ _ _ => Iff.rfl⟩

theorem Onward.trans (h : Onward d c c') (h' : Onward d c' c'') : Onward d c c'' where
  next := h.next.trans h'.next
  refers u l hr := h'.refers u l (h.refers u l hr)
  connected u ws hc := h'.connected u ws (h.connected u ws hc)
  failed d' hd ws := (h'.failed d' hd ws).trans (h.failed d' hd ws)
  sent d' hd ws payload := (h'.sent d' hd ws payload).trans (h.sent d' hd ws payload)

theorem Onward.touched (h : Onward d c c') {d' : ℕ} (hd : d' ≠ d) (ws : WebSocket) :
    Touched c'.log d' ws ↔ Touched c.log d' ws := by
  unfold Touched
  rw [h.failed d' hd]
  simp only [h.sent d' hd]

theorem Underway.onward {d' : ℕ} {users : List (ℤ × ℕ)} (h : c.Underway d' users) (hd : d' ≠ d)
    (hon : Onward d c c') : c'.Underway d' users where
  begun := h.begun.trans_le hon.next
  distinct := h.distinct
  refers x hx := hon.refers x.1 x.2 (h.refers x hx)
  past ws hws := by
    obtain ⟨u, hu, hout⟩ := h.past ws ((hon.touched hd ws).mp hws)
    exact ⟨u, hon.connected u ws hu, hout⟩

theorem Awaits.onward {x : LocalDelivery μ} (h : c.Awaits x) (hd : x.id ≠ d) (hon : Onward d c c') :
    c'.Awaits x where
  underway := h.underway.onward hd hon
  past := h.past
  fresh ws hws ht := h.fresh ws hws ((hon.touched hd ws).mp ht)
  distinct := h.distinct
  own ws hws := hon.connected x.userId ws (h.own ws hws)
  dead ws hws := by
    obtain ⟨hfailed, hunsent⟩ := h.dead ws hws
    exact ⟨(hon.failed x.id hd ws).mpr hfailed, fun payload hsent =>
      hunsent payload ((hon.sent x.id hd ws payload).mp hsent)⟩

/-! ### What is logged keeps the core sound -/

theorem Sound.connect (h : c.Sound) {u : ℤ} {ws : WebSocket}
    (hfresh : ∀ u', .connected u' ws ∉ c.log) :
    Sound { c with registry := c.registry.append u ws, log := .connected u ws :: c.log } where
  registry := h.registry.append
  once u' := by
    rw [Registry.conns_append h.registry]
    split
    · rw [List.nodup_append]
      refine ⟨h.once u, List.nodup_singleton ws, fun a ha b hb hab => ?_⟩
      rw [List.mem_singleton.mp hb] at hab
      rw [hab] at ha
      exact hfresh u (connected_of_live ((h.holds u ws).mp ha))
    · exact h.once u'
  holds u' ws' := by
    rw [Registry.conns_append h.registry]
    split
    next hu =>
      subst hu
      rw [List.mem_append, List.mem_singleton, h.holds]
      constructor
      · intro hin
        rcases hin with hold | rfl
        · exact Or.inr hold
        · exact Or.inl ⟨rfl, rfl⟩
      · intro hlive
        rcases hlive with ⟨_, rfl⟩ | hold
        · exact Or.inr rfl
        · exact Or.inl hold
    next hu =>
      rw [h.holds]
      exact ⟨Or.inr, fun hlive => hlive.resolve_left fun heq => hu heq.1.symm⟩
  oneUser u₁ u₂ ws' h₁ h₂ := by
    rcases List.mem_cons.mp h₁ with heq₁ | hold₁
    · cases heq₁
      rcases List.mem_cons.mp h₂ with heq₂ | hold₂
      · cases heq₂
        rfl
      · exact absurd hold₂ (hfresh u₂)
    · rcases List.mem_cons.mp h₂ with heq₂ | hold₂
      · cases heq₂
        exact absurd hold₁ (hfresh u₁)
      · exact h.oneUser u₁ u₂ ws' hold₁ hold₂
  begun d ws' ht := h.begun d ws' (by simpa [Touched] using ht)
  cleaned d u' ws' hc := by
    simpa using h.cleaned d u' ws' (by simpa using hc)

theorem Sound.mem_remove (h : c.Sound) {u u' : ℤ} {ws ws' : WebSocket} :
    ws' ∈ (c.registry.remove u ws).conns u' ↔ ¬(u = u' ∧ ws = ws') ∧ Live c.log u' ws' := by
  rw [Registry.conns_remove h.registry, ← h.holds]
  split
  next hu =>
    subst hu
    rw [(h.once u').mem_erase_iff]
    constructor
    · intro hin
      exact ⟨fun heq => hin.1 heq.2.symm, hin.2⟩
    · intro hin
      exact ⟨fun heq => hin.1 ⟨rfl, heq.symm⟩, hin.2⟩
  next hu => exact (and_iff_right fun heq => hu heq.1.symm).symm

theorem Sound.once_remove (h : c.Sound) (u u' : ℤ) (ws : WebSocket) :
    ((c.registry.remove u ws).conns u').Nodup := by
  rw [Registry.conns_remove h.registry]
  split
  · exact (h.once u).erase ws
  · exact h.once u'

theorem Sound.disconnect (h : c.Sound) (u : ℤ) (ws : WebSocket) :
    Sound { c with registry := c.registry.remove u ws, log := .disconnected u ws :: c.log } where
  registry := h.registry.remove
  once u' := h.once_remove u u' ws
  holds u' ws' := h.mem_remove
  oneUser u₁ u₂ ws' h₁ h₂ :=
    h.oneUser u₁ u₂ ws' (by simpa using h₁) (by simpa using h₂)
  begun d ws' ht := h.begun d ws' (by simpa [Touched] using ht)
  cleaned d u' ws' hc := by
    simpa using h.cleaned d u' ws' (by simpa using hc)

theorem Sound.clean (h : c.Sound) {d : ℕ} {u : ℤ} {ws : WebSocket}
    (hdead : .failed d ws ∈ c.log ∧ ∀ payload, .sent d ws payload ∉ c.log) :
    Sound { c with registry := c.registry.remove u ws, log := .cleaned d u ws :: c.log } where
  registry := h.registry.remove
  once u' := h.once_remove u u' ws
  holds u' ws' := by
    refine h.mem_remove.trans (and_congr_left fun _ => not_congr ?_)
    constructor
    · intro heq
      exact ⟨heq.1, heq.2, heq.2 ▸ hdead.1⟩
    · intro heq
      exact ⟨heq.1, heq.2.1⟩
  oneUser u₁ u₂ ws' h₁ h₂ :=
    h.oneUser u₁ u₂ ws' (by simpa using h₁) (by simpa using h₂)
  begun d ws' ht := h.begun d ws' (by simpa [Touched] using ht)
  cleaned d' u' ws' hc := by
    rcases List.mem_cons.mp hc with heq | hold
    · cases heq
      simpa using hdead
    · simpa using h.cleaned d' u' ws' hold

/-- The log entry of an answer; a delivery has no second one from a socket. -/
theorem Sound.answer (h : c.Sound) {d : ℕ} {ws : WebSocket} {e : LogEntry μ}
    (he : e = .failed d ws ∨ ∃ payload, e = .sent d ws payload) (hbegun : d < c.nextDelivery)
    (hfresh : ¬Touched c.log d ws) : Sound { c with log := e :: c.log } where
  registry := h.registry
  once := h.once
  holds u ws' := by
    rcases he with rfl | ⟨payload, rfl⟩
    · exact h.holds u ws'
    · exact h.holds u ws'
  oneUser u₁ u₂ ws' h₁ h₂ := by
    rcases he with rfl | ⟨payload, rfl⟩
    · exact h.oneUser u₁ u₂ ws' (by simpa using h₁) (by simpa using h₂)
    · exact h.oneUser u₁ u₂ ws' (by simpa using h₁) (by simpa using h₂)
  begun d' ws' ht := by
    by_cases hd : d' = d
    · exact hd ▸ hbegun
    · refine h.begun d' ws' ?_
      rcases he with rfl | ⟨payload, rfl⟩ <;> simpa [Touched, hd] using ht
  cleaned d' u ws' hc := by
    have hold : .cleaned d' u ws' ∈ c.log := by
      rcases he with rfl | ⟨payload, rfl⟩ <;> simpa using hc
    obtain ⟨hfailed, hunsent⟩ := h.cleaned d' u ws' hold
    refine ⟨List.mem_cons_of_mem _ hfailed, fun payload hsent => ?_⟩
    rcases List.mem_cons.mp hsent with heq | hin
    · rcases he with rfl | ⟨payload', rfl⟩
      · cases heq
      · cases heq
        exact hfresh (Or.inl hfailed)
    · exact hunsent payload hin

/-! ### Clean-up and turns -/

theorem onward_remove (h : c.Sound) (d : ℕ) {u : ℤ} {ws : WebSocket} {e : LogEntry μ}
    (he : e = .disconnected u ws ∨ ∃ d', e = .cleaned d' u ws) :
    Onward d c { c with registry := c.registry.remove u ws, log := e :: c.log } where
  next := le_refl _
  refers u' l hr := hr.remove h.registry
  connected u' ws' hc := List.mem_cons_of_mem _ hc
  failed d' _ ws' := by
    rcases he with rfl | ⟨_, rfl⟩ <;> simp
  sent d' _ ws' payload := by
    rcases he with rfl | ⟨_, rfl⟩ <;> simp

theorem cleanUp_spec (h : c.Sound) (u : ℤ) {dead : List WebSocket}
    (hdead : ∀ ws ∈ dead, .failed d ws ∈ c.log ∧ ∀ payload, .sent d ws payload ∉ c.log) :
    (c.cleanUp d u dead).Sound ∧ ∀ d', Onward d' c (c.cleanUp d u dead) := by
  induction dead generalizing c with
  | nil => exact ⟨h, fun d' => .refl d' c⟩
  | cons ws dead ih =>
    have hstep : ∀ d', Onward d' c { c with
        registry := c.registry.remove u ws, log := .cleaned d u ws :: c.log } :=
      fun d' => onward_remove h d' (Or.inr ⟨d, rfl⟩)
    have hrest : ∀ ws' ∈ dead, .failed d ws' ∈ LogEntry.cleaned d u ws :: c.log ∧
        ∀ payload, .sent d ws' payload ∉ LogEntry.cleaned d u ws :: c.log := by
      intro ws' hws'
      simpa using hdead ws' (List.mem_cons_of_mem _ hws')
    obtain ⟨hsound, hon⟩ := ih (h.clean (u := u) (hdead ws List.mem_cons_self)) hrest
    exact ⟨hsound, fun d' => (hstep d').trans (hon d')⟩

end ManagerCore

namespace ConnectionManager

variable {μ : Type}

structure Sound (m : ConnectionManager μ) : Prop where
  core : m.toManagerCore.Sound
  distinct : (m.deliveries.map LocalDelivery.id).Nodup
  awaits : ∀ x ∈ m.deliveries, m.toManagerCore.Awaits x

variable {m : ConnectionManager μ}

theorem turn_sound {d : ℕ} {payload : μ} {users : List (ℤ × ℕ)} (h : m.Sound)
    (hother : ∀ x ∈ m.deliveries, x.id ≠ d) (hunder : m.toManagerCore.Underway d users) :
    (m.turn d payload users).Sound := by
  induction users with
  | nil => exact h
  | cons x users ih =>
    obtain ⟨u, l⟩ := x
    have hdistinct := List.nodup_cons.mp hunder.distinct
    have hrest : m.toManagerCore.Underway d users := by
      refine ⟨hunder.begun, hdistinct.2, fun y hy => hunder.refers y (List.mem_cons_of_mem _ hy),
        fun ws hws => ?_⟩
      obtain ⟨u', hu', hout⟩ := hunder.past ws hws
      exact ⟨u', hu', fun hin => hout (List.mem_cons_of_mem _ hin)⟩
    unfold turn
    split
    next => exact ih hrest
    next ws todo hlist =>
      have hget : m.registry.connections.get u = some l :=
        (hunder.refers (u, l) List.mem_cons_self).2 (by rw [hlist]; exact List.cons_ne_nil _ _)
      have hconns : m.registry.conns u = ws :: todo :=
        (Registry.conns_of_get hget).trans hlist
      have hown : ∀ ws' ∈ ws :: todo, .connected u ws' ∈ m.log := by
        intro ws' hws'
        rw [← hconns] at hws'
        exact connected_of_live ((h.core.holds u ws').mp hws')
      refine ⟨h.core, ?_, fun y hy => ?_⟩
      · refine List.nodup_cons.mpr ⟨fun hin => ?_, h.distinct⟩
        obtain ⟨y, hy, hid⟩ := List.mem_map.mp hin
        exact hother y hy hid
      · rcases List.mem_cons.mp hy with rfl | hy
        · refine ⟨hrest, hdistinct.1, fun ws' hws' ht => ?_, hconns ▸ h.core.once u, hown,
            fun ws' hws' => by cases hws'⟩
          obtain ⟨u', hu', hout⟩ := hunder.past ws' ht
          exact hout (h.core.oneUser u' u ws' hu' (hown ws' hws') ▸ List.mem_cons_self)
        · exact h.awaits y hy

/-! ### One event -/

theorem find?_delivery {d : ℕ} {x : LocalDelivery μ}
    (hx : m.deliveries.find? (fun y => y.id = d) = some x) : x ∈ m.deliveries ∧ x.id = d :=
  ⟨List.mem_of_find?_eq_some hx, by simpa using List.find?_some hx⟩

theorem mem_others {d : ℕ} {y : LocalDelivery μ}
    (hy : y ∈ m.deliveries.filter fun y => y.id ≠ d) : y ∈ m.deliveries ∧ y.id ≠ d := by
  simpa using hy

theorem answered_spec (h : m.Sound) {x : LocalDelivery μ} (hx : x ∈ m.deliveries) (ok : Bool) :
    (m.answered x ok).Sound ∧ m.toManagerCore.Onward x.id (m.answered x ok) := by
  have hawaits := h.awaits x hx
  refine ⟨h.core.answer ?_ hawaits.underway.begun (hawaits.fresh _ List.mem_cons_self), ?_⟩
  · cases ok with
    | true => exact Or.inr ⟨x.payload, rfl⟩
    | false => exact Or.inl rfl
  · refine ⟨le_refl _, fun _ _ hr => hr, fun u ws hc => List.mem_cons_of_mem _ hc,
      fun d' hd ws => ?_, fun d' hd ws payload => ?_⟩
    · cases ok <;> simp [answered, hd]
    · cases ok <;> simp [answered, hd]

theorem answered_underway (h : m.Sound) {x : LocalDelivery μ} (hx : x ∈ m.deliveries) (ok : Bool) :
    (m.answered x ok).Underway x.id x.users := by
  have hawaits := h.awaits x hx
  have hunder := hawaits.underway
  refine ⟨hunder.begun, hunder.distinct, hunder.refers, fun ws hws => ?_⟩
  by_cases hsame : ws = x.sending
  · subst hsame
    exact ⟨x.userId, List.mem_cons_of_mem _ (hawaits.own _ List.mem_cons_self), hawaits.past⟩
  · have hold : Touched m.log x.id ws := by
      cases ok <;> simpa [Touched, answered, hsame] using hws
    obtain ⟨u, hu, hout⟩ := hunder.past ws hold
    exact ⟨u, List.mem_cons_of_mem _ hu, hout⟩

theorem answered_dead (h : m.Sound) {x : LocalDelivery μ} (hx : x ∈ m.deliveries) (ok : Bool) :
    ∀ ws ∈ (if ok then x.dead else x.dead ++ [x.sending]),
      .failed x.id ws ∈ (m.answered x ok).log ∧
        ∀ payload, .sent x.id ws payload ∉ (m.answered x ok).log := by
  have hawaits := h.awaits x hx
  have hfresh := hawaits.fresh _ List.mem_cons_self
  intro ws hws
  cases ok with
  | true =>
    obtain ⟨hfailed, hunsent⟩ := hawaits.dead ws hws
    refine ⟨List.mem_cons_of_mem _ hfailed, fun payload hsent => ?_⟩
    rcases List.mem_cons.mp hsent with heq | hin
    · cases heq
      exact hfresh (Or.inl hfailed)
    · exact hunsent payload hin
  | false =>
    rcases List.mem_append.mp hws with hdead | hlast
    · obtain ⟨hfailed, hunsent⟩ := hawaits.dead ws hdead
      exact ⟨List.mem_cons_of_mem _ hfailed, fun payload hsent =>
        hunsent payload (by simpa [answered] using hsent)⟩
    · rw [List.mem_singleton.mp hlast]
      refine ⟨List.mem_cons_self, fun payload hsent => hfresh (Or.inr ⟨payload, ?_⟩)⟩
      simpa [answered] using hsent

theorem resume_sound (h : m.Sound) (d : ℕ) (ok : Bool) : (m.resume d ok).Sound := by
  unfold resume
  split
  next => exact h
  next x hfind =>
    obtain ⟨hx, rfl⟩ := find?_delivery hfind
    have hawaits := h.awaits x hx
    obtain ⟨hsound, hon⟩ := answered_spec h hx ok
    have hunder := answered_underway h hx ok
    have hdead := answered_dead h hx ok
    have hdistinct : ((m.deliveries.filter fun y => y.id ≠ x.id).map LocalDelivery.id).Nodup :=
      h.distinct.sublist (List.Sublist.map _ List.filter_sublist)
    dsimp only
    split
    next ws todo htodo =>
      have hin : ∀ ws' ∈ ws :: todo, ws' ∈ x.sending :: x.todo := fun ws' hws' =>
        List.mem_cons_of_mem _ (htodo ▸ hws')
      have hne : ∀ ws' ∈ ws :: todo, ws' ≠ x.sending := by
        intro ws' hws' heq
        exact (List.nodup_cons.mp hawaits.distinct).1 (htodo ▸ heq ▸ hws')
      refine ⟨hsound, ?_, fun y hy => ?_⟩
      · refine List.nodup_cons.mpr ⟨fun hmem => ?_, hdistinct⟩
        obtain ⟨y, hy, hid⟩ := List.mem_map.mp hmem
        exact (mem_others hy).2 hid
      · rcases List.mem_cons.mp hy with rfl | hy
        · refine ⟨hunder, hawaits.past, fun ws' hws' ht => ?_,
            htodo ▸ (List.nodup_cons.mp hawaits.distinct).2,
            fun ws' hws' => hon.connected _ ws' (hawaits.own ws' (hin ws' hws')), hdead⟩
          refine hawaits.fresh ws' (hin ws' hws') ?_
          cases ok <;> simpa [Touched, answered, hne ws' hws'] using ht
        · obtain ⟨hold, hid⟩ := mem_others hy
          exact (h.awaits y hold).onward hid hon
    next htodo =>
      obtain ⟨hclean, hon'⟩ := ManagerCore.cleanUp_spec hsound x.userId hdead
      refine turn_sound (d := x.id) ⟨hclean, hdistinct, fun y hy => ?_⟩
        (fun y hy => (mem_others hy).2) ?_
      · obtain ⟨hold, hid⟩ := mem_others hy
        exact (h.awaits y hold).onward hid (hon.trans (hon' x.id))
      · exact hunder.onward (Nat.succ_ne_self x.id).symm (hon' (x.id + 1))

theorem onward_begin (m : ConnectionManager μ) (d : ℕ) :
    m.toManagerCore.Onward d { m.toManagerCore with nextDelivery := m.nextDelivery + 1 } :=
  ⟨Nat.le_succ _, fun _ _ h => h, fun _ _ h => h, fun _ _ _ => Iff.rfl, fun _ _ _ _ => Iff.rfl⟩

theorem begin_sound (h : m.Sound) :
    Sound { m with nextDelivery := m.nextDelivery + 1 } ∧
      (∀ x ∈ m.deliveries, x.id ≠ m.nextDelivery) ∧
      ∀ ws, ¬Touched m.log m.nextDelivery ws := by
  have hbelow : ∀ x ∈ m.deliveries, x.id ≠ m.nextDelivery := fun x hx =>
    (h.awaits x hx).underway.begun.ne
  refine ⟨⟨?_, h.distinct, fun x hx => ?_⟩, hbelow, fun ws hws => ?_⟩
  · exact ⟨h.core.registry, h.core.once, h.core.holds, h.core.oneUser, fun d ws hws =>
      (h.core.begun d ws hws).trans (Nat.lt_succ_self _), h.core.cleaned⟩
  · exact (h.awaits x hx).onward (hbelow x hx) (onward_begin m m.nextDelivery)
  · exact absurd (h.core.begun _ ws hws) (lt_irrefl _)

theorem begin_underway (h : m.Sound) {users : List (ℤ × ℕ)}
    (hdistinct : (users.map Prod.fst).Nodup)
    (hget : ∀ x ∈ users, m.registry.connections.get x.1 = some x.2) :
    ManagerCore.Underway { m.toManagerCore with nextDelivery := m.nextDelivery + 1 }
      m.nextDelivery users where
  begun := Nat.lt_succ_self _
  distinct := hdistinct
  refers x hx := h.core.registry.refers (hget x hx)
  past ws hws := absurd hws ((begin_sound h).2.2 ws)

theorem localBroadcast_sound (h : m.Sound) (payload : μ) : (m.localBroadcast payload).Sound :=
  turn_sound (begin_sound h).1 (begin_sound h).2.1
    (begin_underway h m.registry.connections.distinct fun _ hx => Dict.get_eq_some.mpr hx)

theorem localSend_eq_turn (m : ConnectionManager μ) (userId : ℤ) (payload : μ) :
    m.localSend userId payload =
      match m.registry.connections.get userId with
      | none => { m with nextDelivery := m.nextDelivery + 1 }
      | some l => turn { m with nextDelivery := m.nextDelivery + 1 } m.nextDelivery payload
          [(userId, l)] := by
  unfold localSend Registry.conns
  cases hget : m.registry.connections.get userId with
  | none => rfl
  | some l =>
    simp only [Option.map_some, Option.getD_some, turn]

theorem localSend_sound (h : m.Sound) (userId : ℤ) (payload : μ) :
    (m.localSend userId payload).Sound := by
  rw [localSend_eq_turn]
  cases hget : m.registry.connections.get userId with
  | none => exact (begin_sound h).1
  | some l =>
    refine turn_sound (begin_sound h).1 (begin_sound h).2.1
      (begin_underway h (List.nodup_singleton _) fun x hx => ?_)
    rw [List.mem_singleton.mp hx]
    exact hget

theorem connect_sound (h : m.Sound) {u : ℤ} {ws : WebSocket}
    (hfresh : ∀ u', .connected u' ws ∉ m.log) : (m.connect u ws).Sound := by
  refine ⟨h.core.connect hfresh, h.distinct, fun x hx => ?_⟩
  refine (h.awaits x hx).onward (d := x.id + 1) (Nat.succ_ne_self x.id).symm ?_
  exact ⟨le_refl _, fun u' l hr => hr.append h.core.registry,
    fun u' ws' hc => List.mem_cons_of_mem _ hc, fun _ _ _ => by simp [connect],
    fun _ _ _ _ => by simp [connect]⟩

theorem disconnect_sound (h : m.Sound) (u : ℤ) (ws : WebSocket) : (m.disconnect u ws).Sound := by
  refine ⟨h.core.disconnect u ws, h.distinct, fun x hx => ?_⟩
  exact (h.awaits x hx).onward (Nat.succ_ne_self x.id).symm
    (ManagerCore.onward_remove h.core (x.id + 1) (Or.inl rfl))

theorem step_sound (m : ConnectionManager μ) (e : ManagerEvent μ) (h : m.Sound)
    (honce : m.ConnectsOnce e) : (m.step e).Sound := by
  cases e with
  | connect userId ws => exact connect_sound h honce
  | disconnect userId ws => exact disconnect_sound h userId ws
  | localSend userId payload => exact localSend_sound h userId payload
  | localBroadcast payload => exact localBroadcast_sound h payload
  | resume d ok => exact resume_sound h d ok

theorem new_sound : (new : ConnectionManager μ).Sound := by
  refine ⟨⟨Registry.sound_empty, fun u => List.nodup_nil, fun u ws => ?_, ?_, ?_, ?_⟩,
    List.nodup_nil, ?_⟩
  · exact iff_of_false List.not_mem_nil id
  · exact fun _ _ _ h => (List.not_mem_nil h).elim
  · intro d ws h
    rcases h with h | ⟨_, h⟩
    · exact (List.not_mem_nil h).elim
    · exact (List.not_mem_nil h).elim
  · exact fun _ _ _ h => (List.not_mem_nil h).elim
  · exact fun _ h => (List.not_mem_nil h).elim

theorem Sound.exact (h : m.Sound) : m.Exact where
  once := h.core.once
  holds := h.core.holds
  filled := h.core.registry.filled
  users := by
    rw [connectedUsers, Dict.length_eq_ncard]
    congr 1
    ext u
    rw [Set.mem_ofPred_eq, Set.mem_ofPred_eq, ← h.core.registry.conns_ne_nil,
      ← List.length_pos_iff_ne_nil, List.length_pos_iff_exists_mem]
    exact exists_congr fun ws => h.core.holds u ws
  spared d u ws payload hsent hcleaned := (h.core.cleaned d u ws hcleaned).2 payload hsent

end ConnectionManager

/-! ### Runs -/

end HotelMs
