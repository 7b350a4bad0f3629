import HotelMs.Connections

/-!
# The handler of a socket

`websocket_endpoint` of `api/v1/ws.py` once the token is accepted, one await at a
time, beside the deliveries on the same registry. Any await can raise.
-/

namespace HotelMs

open Runs

/-- The await a handler is suspended at, or how it ended. `accepting` is inside
`ws_manager.connect`, before the socket is appended. -/
inductive Phase
  | accepting
  | greeting
  | receiving
  | ponging
  | refused
  | returned
  | raised
  deriving DecidableEq

/-- An await returns (a receive with its text), raises `WebSocketDisconnect`, or
raises anything else. -/
inductive Answer
  | done (text : String)
  | disconnected
  | failed

structure Handler where
  userId : ℤ
  phase : Phase

structure Endpoint (μ : Type) where
  manager : ConnectionManager μ
  handlers : WebSocket → Option Handler

inductive EndpointEvent (μ : Type)
  | opened (userId : ℤ) (ws : WebSocket)
  | answer (ws : WebSocket) (a : Answer)
  | localSend (userId : ℤ) (payload : μ)
  | localBroadcast (payload : μ)
  | resume (delivery : ℕ) (ok : Bool)

namespace Phase

def inTry : Phase → Bool
  | greeting | receiving | ponging => true
  | _ => false

/-- The endpoint has returned or raised after having connected. -/
def ended : Phase → Bool
  | returned | raised => true
  | _ => false

/-- The await that follows one that returned. -/
def next (text : String) : Phase → Phase
  | greeting | ponging => receiving
  | receiving => if text = "ping" then ponging else receiving
  | phase => phase

theorem next_inTry {phase : Phase} (h : phase.inTry = true) (text : String) :
    (phase.next text).inTry = true := by
  cases phase with
  | receiving =>
    simp only [next]
    split <;> rfl
  | greeting => rfl
  | ponging => rfl
  | _ => cases h

theorem not_ended_of_inTry {phase : Phase} (h : phase.inTry = true) : phase.ended = false := by
  cases phase <;> first | rfl | cases h

end Phase

namespace Endpoint

variable {μ : Type}

def start : Endpoint μ := ⟨.new, fun _ => none⟩

def goTo (w : Endpoint μ) (ws : WebSocket) (h : Handler) (phase : Phase) : Endpoint μ :=
  { w with handlers := Function.update w.handlers ws (some { h with phase }) }

def answered (w : Endpoint μ) (ws : WebSocket) (h : Handler) (a : Answer) : Endpoint μ :=
  if h.phase = .accepting then
    match a with
    | .done _ => { w.goTo ws h .greeting with manager := w.manager.connect h.userId ws }
    | .disconnected | .failed => w.goTo ws h .refused
  else if h.phase.inTry then
    match a with
    | .done text => w.goTo ws h (h.phase.next text)
    | .disconnected => { w.goTo ws h .returned with manager := w.manager.disconnect h.userId ws }
    | .failed => w.goTo ws h .raised
  else w

def step (w : Endpoint μ) : EndpointEvent μ → Endpoint μ
  | .opened userId ws =>
    match w.handlers ws with
    | none => w.goTo ws ⟨userId, .accepting⟩ .accepting
    | some _ => w
  | .answer ws a =>
    match w.handlers ws with
    | none => w
    | some h => w.answered ws h a
  | .localSend userId payload => { w with manager := w.manager.localSend userId payload }
  | .localBroadcast payload => { w with manager := w.manager.localBroadcast payload }
  | .resume d ok => { w with manager := w.manager.resume d ok }

/-- The registry does not hold the socket of an endpoint that is over. -/
def NoLeak (w : Endpoint μ) : Prop :=
  ∀ ws h, w.handlers ws = some h → h.phase.ended = true → ∀ u, ws ∉ w.manager.registry.conns u

/-- An exception other than `WebSocketDisconnect` ends an endpoint only when the
clean-up of a delivery has taken its socket out before. -/
def ExitsClean (w : Endpoint μ) : EndpointEvent μ → Prop
  | .answer ws .failed => ∀ h, w.handlers ws = some h → h.phase.inTry = true →
      ∀ u, ws ∉ w.manager.registry.conns u
  | _ => True

/-- Only sockets whose handler has got through `connect` have been connected. -/
structure Sound (w : Endpoint μ) : Prop where
  manager : w.manager.Sound
  connected : ∀ u ws, .connected u ws ∈ w.manager.log →
    ∃ h, w.handlers ws = some h ∧ h.userId = u ∧ (h.phase.inTry = true ∨ h.phase.ended = true)

end Endpoint

/-! ### Deliveries take sockets out, and put none in -/

section

variable {μ : Type}

/-- Nothing is connected from the one core to the other. -/
structure ManagerCore.Shrinks (c c' : ManagerCore μ) : Prop where
  conns : ∀ u ws, ws ∈ c'.registry.conns u → ws ∈ c.registry.conns u
  connected : ∀ u ws, .connected u ws ∈ c'.log → .connected u ws ∈ c.log

namespace ManagerCore

variable {c c' c'' : ManagerCore μ}

theorem Shrinks.refl (c : ManagerCore μ) : c.Shrinks c := ⟨fun _ _ h => h, fun _ _ h => h⟩

theorem Shrinks.trans (h : c.Shrinks c') (h' : c'.Shrinks c'') : c.Shrinks c'' :=
  ⟨fun u ws hin => h.conns u ws (h'.conns u ws hin),
    fun u ws hin => h.connected u ws (h'.connected u ws hin)⟩

theorem mem_conns_remove {g : Registry} (hg : g.Sound) {u u' : ℤ} {ws ws' : WebSocket}
    (h : ws' ∈ (g.remove u ws).conns u') : ws' ∈ g.conns u' := by
  rw [Registry.conns_remove hg] at h
  split at h
  next hu =>
    subst hu
    exact List.mem_of_mem_erase h
  next => exact h

theorem cleanUp_shrinks (hc : c.registry.Sound) (d : ℕ) (u : ℤ) (dead : List WebSocket) :
    c.Shrinks (c.cleanUp d u dead) := by
  induction dead generalizing c with
  | nil => exact .refl c
  | cons ws dead ih =>
    have hstep : c.Shrinks { c with
        registry := c.registry.remove u ws, log := .cleaned d u ws :: c.log } :=
      ⟨fun u' ws' h => mem_conns_remove hc h, fun u' ws' h => by simpa using h⟩
    exact hstep.trans (ih hc.remove)

end ManagerCore

namespace ConnectionManager

variable {m : ConnectionManager μ}

theorem turn_core (d : ℕ) (payload : μ) (users : List (ℤ × ℕ)) :
    (m.turn d payload users).toManagerCore = m.toManagerCore := by
  induction users with
  | nil => rfl
  | cons x users ih =>
    unfold turn
    split
    · exact ih
    · rfl

theorem answered_shrinks (x : LocalDelivery μ) (ok : Bool) :
    m.toManagerCore.Shrinks (m.answered x ok) := by
  refine ⟨fun _ _ h => h, fun u ws h => ?_⟩
  cases ok <;> simpa [answered] using h

theorem resume_shrinks (h : m.Sound) (d : ℕ) (ok : Bool) :
    m.toManagerCore.Shrinks (m.resume d ok).toManagerCore := by
  unfold resume
  split
  next => exact .refl _
  next x _ =>
    dsimp only
    split
    next => exact answered_shrinks x ok
    next =>
      rw [turn_core]
      have hsound : (m.answered x ok).registry.Sound := h.core.registry
      exact (answered_shrinks x ok).trans (ManagerCore.cleanUp_shrinks hsound d _ _)

theorem localSend_shrinks (u : ℤ) (payload : μ) :
    m.toManagerCore.Shrinks (m.localSend u payload).toManagerCore := by
  unfold localSend
  split
  · exact ⟨fun _ _ h => h, fun _ _ h => h⟩
  · exact ⟨fun _ _ h => h, fun _ _ h => h⟩

theorem localBroadcast_shrinks (payload : μ) :
    m.toManagerCore.Shrinks (m.localBroadcast payload).toManagerCore := by
  unfold localBroadcast
  rw [turn_core]
  exact ⟨fun _ _ h => h, fun _ _ h => h⟩

end ConnectionManager

end

/-! ### One event -/

namespace Endpoint

variable {μ : Type} {w : Endpoint μ}

theorem mem_handler (h : w.Sound) {u : ℤ} {ws : WebSocket}
    (hin : ws ∈ w.manager.registry.conns u) :
    ∃ x, w.handlers ws = some x ∧ x.userId = u ∧ (x.phase.inTry = true ∨ x.phase.ended = true) :=
  h.connected u ws (connected_of_live ((h.manager.core.holds u ws).mp hin))

theorem pushed_sound (h : w.Sound) {m : ConnectionManager μ} (hm : m.Sound)
    (hshrinks : w.manager.toManagerCore.Shrinks m.toManagerCore) :
    Sound { w with manager := m } :=
  ⟨hm, fun u ws hin => h.connected u ws (hshrinks.connected u ws hin)⟩

theorem pushed_noLeak (h : w.NoLeak) {m : ConnectionManager μ}
    (hshrinks : w.manager.toManagerCore.Shrinks m.toManagerCore) :
    NoLeak { w with manager := m } :=
  fun ws x hx hover u hin => h ws x hx hover u (hshrinks.conns u ws hin)

theorem goTo_self (ws : WebSocket) (x : Handler) (phase : Phase) :
    (w.goTo ws x phase).handlers ws = some { x with phase } :=
  Function.update_self ..

theorem goTo_of_ne {ws ws' : WebSocket} (h : ws' ≠ ws) (x : Handler) (phase : Phase) :
    (w.goTo ws x phase).handlers ws' = w.handlers ws' :=
  Function.update_of_ne h ..

theorem goTo_sound (h : w.Sound) {ws : WebSocket} {x : Handler} {phase : Phase}
    (hphase : ∀ u, .connected u ws ∈ w.manager.log →
      x.userId = u ∧ (phase.inTry = true ∨ phase.ended = true)) :
    (w.goTo ws x phase).Sound := by
  refine ⟨h.manager, fun u ws' hin => ?_⟩
  by_cases hws : ws' = ws
  · subst hws
    exact ⟨_, goTo_self .., hphase u hin⟩
  · obtain ⟨y, hy, hrest⟩ := h.connected u ws' hin
    exact ⟨y, (goTo_of_ne hws ..).trans hy, hrest⟩

theorem goTo_noLeak {ws : WebSocket} {x : Handler} {phase : Phase} {m : ConnectionManager μ}
    (hrest : ∀ ws' ≠ ws, ∀ y, w.handlers ws' = some y → y.phase.ended = true →
      ∀ u, ws' ∉ m.registry.conns u) :
    NoLeak { w.goTo ws x phase with manager := m } ↔
      (phase.ended = true → ∀ u, ws ∉ m.registry.conns u) := by
  constructor
  · intro hnext hover
    exact hnext ws _ (goTo_self ..) hover
  · intro hphase ws' y hy hover
    by_cases hws : ws' = ws
    · subst hws
      rw [← Option.some.inj ((goTo_self ws' x phase).symm.trans hy)] at hover
      exact hphase hover
    · exact hrest ws' hws y ((goTo_of_ne hws x phase).symm.trans hy) hover

theorem answered_of_inTry {ws : WebSocket} {x : Handler} (hx : x.phase.inTry = true) (a : Answer) :
    w.answered ws x a = match a with
      | .done text => w.goTo ws x (x.phase.next text)
      | .disconnected => { w.goTo ws x .returned with
          manager := w.manager.disconnect x.userId ws }
      | .failed => w.goTo ws x .raised := by
  have hne : x.phase ≠ .accepting := by
    intro h
    rw [h] at hx
    cases hx
  unfold answered
  rw [if_neg hne, if_pos hx]

theorem answered_of_accepting {ws : WebSocket} {x : Handler} (hx : x.phase = .accepting)
    (a : Answer) :
    w.answered ws x a = match a with
      | .done _ => { w.goTo ws x .greeting with manager := w.manager.connect x.userId ws }
      | .disconnected | .failed => w.goTo ws x .refused := by
  unfold answered
  rw [if_pos hx]

theorem answered_of_outside {ws : WebSocket} {x : Handler} (haccepting : ¬x.phase = .accepting)
    (htry : ¬x.phase.inTry = true) (a : Answer) : w.answered ws x a = w := by
  unfold answered
  rw [if_neg haccepting, if_neg htry]

theorem step_opened_of_none {ws : WebSocket} (hx : w.handlers ws = none) (userId : ℤ) :
    w.step (.opened userId ws) = w.goTo ws ⟨userId, .accepting⟩ .accepting := by
  simp only [step, hx]

theorem step_opened_of_some {ws : WebSocket} {x : Handler} (hx : w.handlers ws = some x)
    (userId : ℤ) : w.step (.opened userId ws) = w := by
  simp only [step, hx]

theorem step_answer_of_none {ws : WebSocket} (hx : w.handlers ws = none) (a : Answer) :
    w.step (.answer ws a) = w := by
  simp only [step, hx]

theorem step_answer_of_some {ws : WebSocket} {x : Handler} (hx : w.handlers ws = some x)
    (a : Answer) : w.step (.answer ws a) = w.answered ws x a := by
  simp only [step, hx]

/-- The socket of a handler outside the `try` and not over was never connected. -/
theorem fresh_of_handler (h : w.Sound) {ws : WebSocket}
    (hx : ∀ x, w.handlers ws = some x → x.phase.inTry = false ∧ x.phase.ended = false) (u : ℤ) :
    .connected u ws ∉ w.manager.log := by
  intro hin
  obtain ⟨x, hhandler, _, hphase⟩ := h.connected u ws hin
  obtain ⟨htry, hover⟩ := hx x hhandler
  rw [htry, hover] at hphase
  rcases hphase with hphase | hphase <;> cases hphase

theorem conns_connect (h : w.Sound) {u u' : ℤ} {ws ws' : WebSocket} (hne : ws' ≠ ws)
    (hin : ws' ∈ (w.manager.connect u ws).registry.conns u') :
    ws' ∈ w.manager.registry.conns u' := by
  have hconns : (w.manager.connect u ws).registry.conns u' =
      if u' = u then w.manager.registry.conns u ++ [ws] else w.manager.registry.conns u' :=
    Registry.conns_append h.manager.core.registry
  rw [hconns] at hin
  split at hin
  next hu =>
    subst hu
    rcases List.mem_append.mp hin with hold | hlast
    · exact hold
    · exact absurd (List.mem_singleton.mp hlast) hne
  next => exact hin

/-- `disconnect` takes the socket out, since it is in one list only, and once. -/
theorem conns_disconnect (h : w.Sound) {ws : WebSocket} {x : Handler}
    (hx : w.handlers ws = some x) (u : ℤ) :
    ws ∉ (w.manager.disconnect x.userId ws).registry.conns u := by
  have hconns : (w.manager.disconnect x.userId ws).registry.conns u =
      if u = x.userId then (w.manager.registry.conns x.userId).erase ws
      else w.manager.registry.conns u :=
    Registry.conns_remove h.manager.core.registry
  rw [hconns]
  split
  · exact fun hin => ((h.manager.core.once x.userId).mem_erase_iff.mp hin).1 rfl
  next hu =>
    intro hin
    obtain ⟨y, hy, hid, _⟩ := mem_handler h hin
    obtain rfl := Option.some.inj (hx.symm.trans hy)
    exact hu hid.symm

theorem answered_sound (h : w.Sound) {ws : WebSocket} {x : Handler} (hx : w.handlers ws = some x)
    (a : Answer) : (w.answered ws x a).Sound := by
  have hown : x.phase.inTry = true → ∀ {phase : Phase}, phase.inTry = true ∨ phase.ended = true →
      ∀ u, .connected u ws ∈ w.manager.log →
        x.userId = u ∧ (phase.inTry = true ∨ phase.ended = true) := by
    intro _ phase hphase u hin
    obtain ⟨y, hy, hid, _⟩ := h.connected u ws hin
    obtain rfl := Option.some.inj (hx.symm.trans hy)
    exact ⟨hid, hphase⟩
  by_cases haccepting : x.phase = .accepting
  · have hfresh : ∀ u, .connected u ws ∉ w.manager.log := fresh_of_handler h fun y hy => by
      obtain rfl := Option.some.inj (hx.symm.trans hy)
      rw [haccepting]
      exact ⟨rfl, rfl⟩
    rw [answered_of_accepting haccepting]
    cases a with
    | done text =>
      refine ⟨ConnectionManager.connect_sound h.manager hfresh, fun u ws' hin => ?_⟩
      rcases List.mem_cons.mp hin with heq | hold
      · cases heq
        exact ⟨_, goTo_self .., rfl, Or.inl rfl⟩
      · have hne : ws' ≠ ws := fun heq => hfresh u (heq ▸ hold)
        obtain ⟨y, hy, hrest⟩ := h.connected u ws' hold
        exact ⟨y, (goTo_of_ne hne ..).trans hy, hrest⟩
    | disconnected => exact goTo_sound h fun u hin => absurd hin (hfresh u)
    | failed => exact goTo_sound h fun u hin => absurd hin (hfresh u)
  · by_cases htry : x.phase.inTry = true
    · rw [answered_of_inTry htry]
      cases a with
      | done text => exact goTo_sound h (hown htry (Or.inl (Phase.next_inTry htry text)))
      | disconnected =>
        have hgo : (w.goTo ws x .returned).Sound := goTo_sound h (hown htry (Or.inr rfl))
        refine ⟨ConnectionManager.disconnect_sound h.manager x.userId ws, fun u ws' hin => ?_⟩
        exact hgo.connected u ws' ((List.mem_cons.mp hin).resolve_left (by simp))
      | failed => exact goTo_sound h (hown htry (Or.inr rfl))
    · rw [answered_of_outside haccepting htry]
      exact h

theorem step_sound (w : Endpoint μ) (e : EndpointEvent μ) (h : w.Sound) : (w.step e).Sound := by
  cases e with
  | opened userId ws =>
    cases hx : w.handlers ws with
    | some x =>
      rw [step_opened_of_some hx]
      exact h
    | none =>
      rw [step_opened_of_none hx]
      refine goTo_sound h fun u hin => ?_
      obtain ⟨y, hy, _⟩ := h.connected u ws hin
      rw [hx] at hy
      cases hy
  | answer ws a =>
    cases hx : w.handlers ws with
    | none =>
      rw [step_answer_of_none hx]
      exact h
    | some x =>
      rw [step_answer_of_some hx]
      exact answered_sound h hx a
  | localSend userId payload =>
    exact pushed_sound h (ConnectionManager.localSend_sound h.manager userId payload)
      (ConnectionManager.localSend_shrinks userId payload)
  | localBroadcast payload =>
    exact pushed_sound h (ConnectionManager.localBroadcast_sound h.manager payload)
      (ConnectionManager.localBroadcast_shrinks payload)
  | resume d ok =>
    exact pushed_sound h (ConnectionManager.resume_sound h.manager d ok)
      (ConnectionManager.resume_shrinks h.manager d ok)

theorem exitsClean_of_outside {ws : WebSocket} (hx : ∀ x, w.handlers ws = some x →
    ¬x.phase.inTry = true) (a : Answer) : w.ExitsClean (.answer ws a) := by
  cases a with
  | failed => exact fun x hhandler htry => absurd htry (hx x hhandler)
  | _ => trivial

theorem answered_noLeak_of_accepting (h : w.Sound) (hleak : w.NoLeak) {ws : WebSocket}
    {x : Handler} (hx : x.phase = .accepting) (a : Answer) : (w.answered ws x a).NoLeak := by
  have hrest : ∀ ws' ≠ ws, ∀ y, w.handlers ws' = some y → y.phase.ended = true →
      ∀ u, ws' ∉ w.manager.registry.conns u := fun ws' _ y hy => hleak ws' y hy
  rw [answered_of_accepting hx]
  cases a with
  | done text =>
    refine (goTo_noLeak fun ws' hne y hy hover u hin => ?_).mpr fun hover => by cases hover
    exact hleak ws' y hy hover u (conns_connect h hne hin)
  | disconnected => exact (goTo_noLeak hrest).mpr fun hover => by cases hover
  | failed => exact (goTo_noLeak hrest).mpr fun hover => by cases hover

theorem answered_noLeak_iff_of_inTry (h : w.Sound) (hleak : w.NoLeak) {ws : WebSocket}
    {x : Handler} (hx : w.handlers ws = some x) (htry : x.phase.inTry = true) (a : Answer) :
    (w.answered ws x a).NoLeak ↔ w.ExitsClean (.answer ws a) := by
  have hrest : ∀ ws' ≠ ws, ∀ y, w.handlers ws' = some y → y.phase.ended = true →
      ∀ u, ws' ∉ w.manager.registry.conns u := fun ws' _ y hy => hleak ws' y hy
  rw [answered_of_inTry htry]
  cases a with
  | done text =>
    refine iff_of_true ((goTo_noLeak hrest).mpr fun hover => ?_) trivial
    rw [Phase.not_ended_of_inTry (Phase.next_inTry htry text)] at hover
    cases hover
  | disconnected =>
    refine iff_of_true ?_ trivial
    refine (goTo_noLeak fun ws' hne y hy hover u hin => ?_).mpr fun _ => conns_disconnect h hx
    exact hleak ws' y hy hover u (ManagerCore.mem_conns_remove h.manager.core.registry hin)
  | failed =>
    refine (goTo_noLeak hrest).trans ?_
    constructor
    · intro hout y hy _
      exact hout rfl
    · intro hclean _
      exact hclean x hx htry

theorem answered_noLeak_iff (h : w.Sound) (hleak : w.NoLeak) {ws : WebSocket} {x : Handler}
    (hx : w.handlers ws = some x) (a : Answer) :
    (w.answered ws x a).NoLeak ↔ w.ExitsClean (.answer ws a) := by
  by_cases htry : x.phase.inTry = true
  · exact answered_noLeak_iff_of_inTry h hleak hx htry a
  · have hclean : w.ExitsClean (.answer ws a) := exitsClean_of_outside (fun y hy => by
      obtain rfl := Option.some.inj (hx.symm.trans hy)
      exact htry) a
    refine iff_of_true ?_ hclean
    by_cases haccepting : x.phase = .accepting
    · exact answered_noLeak_of_accepting h hleak haccepting a
    · rw [answered_of_outside haccepting htry]
      exact hleak

theorem step_noLeak_iff (h : w.Sound) (hleak : w.NoLeak) (e : EndpointEvent μ) :
    (w.step e).NoLeak ↔ w.ExitsClean e := by
  cases e with
  | opened userId ws =>
    refine iff_of_true ?_ trivial
    cases hx : w.handlers ws with
    | some x =>
      rw [step_opened_of_some hx]
      exact hleak
    | none =>
      rw [step_opened_of_none hx]
      exact (goTo_noLeak fun ws' _ y hy => hleak ws' y hy).mpr fun hover => by cases hover
  | answer ws a =>
    cases hx : w.handlers ws with
    | some x =>
      rw [step_answer_of_some hx]
      exact answered_noLeak_iff h hleak hx a
    | none =>
      rw [step_answer_of_none hx]
      refine iff_of_true hleak (exitsClean_of_outside (fun y hy => ?_) a)
      rw [hx] at hy
      cases hy
  | localSend userId payload =>
    exact iff_of_true
      (pushed_noLeak hleak (ConnectionManager.localSend_shrinks userId payload)) trivial
  | localBroadcast payload =>
    exact iff_of_true
      (pushed_noLeak hleak (ConnectionManager.localBroadcast_shrinks payload)) trivial
  | resume d ok =>
    exact iff_of_true
      (pushed_noLeak hleak (ConnectionManager.resume_shrinks h.manager d ok)) trivial

theorem start_sound : (start : Endpoint μ).Sound :=
  ⟨ConnectionManager.new_sound, fun _ _ hin => absurd hin List.not_mem_nil⟩

end Endpoint

/-! ### Runs -/

/-- No socket is left behind in the registry exactly if an exception that the
endpoint does not foresee finds the socket taken out already. -/
theorem no_leak_iff {μ : Type} (es : List (EndpointEvent μ)) :
    Always Endpoint.step Endpoint.NoLeak .start es ↔
      Along Endpoint.step Endpoint.ExitsClean .start es :=
  always_iff_along (J := Endpoint.Sound) (Q := fun _ _ => True) Endpoint.step_sound
    (fun _ e hsound _ hleak => Endpoint.step_noLeak_iff hsound hleak e)
    (along_of_forall fun _ _ _ => trivial) Endpoint.start_sound fun _ _ hx => by cases hx

/-- The client sends a binary frame: `receive_text` raises a `KeyError`. -/
def binaryFrame : List (EndpointEvent Unit) :=
  [.opened 1 7, .answer 7 (.done ""), .answer 7 (.done ""), .answer 7 .failed]

theorem binary_frame_leaks :
    (run Endpoint.step Endpoint.start binaryFrame).manager.registry.conns 1 = [7] ∧
    ¬Always Endpoint.step Endpoint.NoLeak .start binaryFrame := by
  have hconns : (run Endpoint.step Endpoint.start binaryFrame).manager.registry.conns 1 = [7] := by
    decide +kernel
  refine ⟨hconns, fun h => ?_⟩
  have hlast : Endpoint.NoLeak (run Endpoint.step Endpoint.start binaryFrame) := h.2.2.2.2
  exact hlast 7 ⟨1, .raised⟩ rfl rfl 1 (hconns ▸ List.mem_singleton.mpr rfl)

end HotelMs
