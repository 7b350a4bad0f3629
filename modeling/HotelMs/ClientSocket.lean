import Mathlib.Data.Int.Order.Basic
import HotelMs.Lib.Runs

/-!
# The socket of a page (`contexts/SocketContext.jsx`)

The effect runs anew whenever the token or the user id changes: first what the
run before returned, which closes its socket, then a new run, which opens one.
A socket that closes is opened anew after a timeout. Sockets, timeouts and runs
of the effect are numbered in the order they are made.
-/

namespace HotelMs

open Runs

/-- What the URL of the socket is made of. -/
structure SocketDeps where
  userId : ℤ
  token : String
  deriving DecidableEq

/-- None where the effect returns at its first line: no token or user id, the empty
text or `0`. -/
def socketDeps (token : Option String) (userId : Option ℤ) : Option SocketDeps :=
  match token, userId with
  | some t, some u => if t = "" ∨ u = 0 then none else some ⟨u, t⟩
  | _, _ => none

/-- What `JSON.parse` makes of the data of a message, as far as it is looked at. -/
structure SocketMessage where
  event : String
  data : String
  deriving DecidableEq

inductive SocketPhase
  | connecting
  | opened
  | closing
  | closed
  deriving DecidableEq

/-- A socket with the run that made it. `onclose` says whether that run's handler
is still set; `onmessage` and `onerror` are never taken off. -/
structure PageSocket where
  deps : SocketDeps
  run : ℕ
  phase : SocketPhase
  onclose : Bool
  deriving DecidableEq

/-- Not closed, nor about to be. -/
def Listening (s : PageSocket) : Prop := s.phase = .connecting ∨ s.phase = .opened

instance (s : PageSocket) : Decidable (Listening s) := inferInstanceAs (Decidable (_ ∨ _))

/-- `ws.close()` -/
def PageSocket.close (s : PageSocket) : PageSocket :=
  if Listening s then { s with phase := .closing } else s

/-- `deps` are those of the latest run, if it got past its first line; `active` is
the variable of each run; a timeout that is set is `some` with its run and deps. -/
structure SocketPage where
  deps : Option SocketDeps
  runs : ℕ
  active : ℕ → Bool
  sockets : ℕ → Option PageSocket
  nextSocket : ℕ
  wsRef : Option ℕ
  timeouts : ℕ → Option (ℕ × SocketDeps)
  nextTimeout : ℕ
  reconnectRef : Option ℕ
  lastMessage : Option SocketMessage

/-- Data that is no JSON makes no message. -/
inductive SocketEvent
  | render (token : Option String) (userId : Option ℤ)
  | opens (ws : ℕ)
  | receives (ws : ℕ) (msg : Option SocketMessage)
  | fails (ws : ℕ)
  | closes (ws : ℕ)
  | elapses (timeout : ℕ)

namespace SocketPage

def start : SocketPage where
  deps := none
  runs := 0
  active := fun _ => false
  sockets := fun _ => none
  nextSocket := 0
  wsRef := none
  timeouts := fun _ => none
  nextTimeout := 0
  reconnectRef := none
  lastMessage := none

variable (p : SocketPage)

def modify (ws : ℕ) (f : PageSocket → PageSocket) : SocketPage :=
  { p with sockets := Function.update p.sockets ws ((p.sockets ws).map f) }

def connect (run : ℕ) (deps : SocketDeps) : SocketPage :=
  if p.active run then
    { p with
      sockets := Function.update p.sockets p.nextSocket (some ⟨deps, run, .connecting, true⟩)
      nextSocket := p.nextSocket + 1
      wsRef := some p.nextSocket }
  else p

/-- `clearTimeout`, which nothing happens to without a timeout of that number. -/
def clearTimeout (t : Option ℕ) : SocketPage :=
  match t with
  | none => p
  | some t => { p with timeouts := Function.update p.timeouts t none }

/-- `wsRef.current.onclose = null; wsRef.current.close()` -/
def unhook : SocketPage :=
  match p.wsRef with
  | none => p
  | some ws => p.modify ws fun s => { s with onclose := false }.close

/-- What the latest run returned, if it returned anything. -/
def cleanup : SocketPage :=
  match p.deps with
  | none => p
  | some _ =>
    ({ p with active := Function.update p.active (p.runs - 1) false }.clearTimeout
      p.reconnectRef).unhook

/-- A run of the effect after the one before was cleaned up. -/
def effect (deps : Option SocketDeps) : SocketPage :=
  let q := { p with
    deps, runs := p.runs + 1, active := Function.update p.active p.runs deps.isSome }
  match deps with
  | none => q
  | some d => q.connect p.runs d

/-- `onclose` of the run that made the socket. -/
def onClose (s : PageSocket) : SocketPage :=
  if s.onclose ∧ p.active s.run then
    { p with
      timeouts := Function.update p.timeouts p.nextTimeout (some (s.run, s.deps))
      nextTimeout := p.nextTimeout + 1
      reconnectRef := some p.nextTimeout }
  else p

/-- `onmessage`, which a browser calls for an open socket only. -/
def onMessage (s : PageSocket) (msg : Option SocketMessage) : SocketPage :=
  match msg with
  | some m => if s.phase = .opened ∧ m.event ≠ "pong" then { p with lastMessage := m } else p
  | none => p

/-- React runs the effect only where the dependencies differ. A socket closes
from any phase, an error closes it, and a timeout elapses once. -/
def step : SocketEvent → SocketPage
  | .render token userId =>
    if socketDeps token userId = p.deps then p else p.cleanup.effect (socketDeps token userId)
  | .opens ws =>
    p.modify ws fun s => if s.phase = .connecting then { s with phase := .opened } else s
  | .receives ws msg =>
    match p.sockets ws with
    | some s => p.onMessage s msg
    | none => p
  | .fails ws => p.modify ws PageSocket.close
  | .closes ws =>
    match p.sockets ws with
    | some s =>
      if s.phase = .closed then p
      else (p.modify ws fun s => { s with phase := .closed }).onClose s
    | none => p
  | .elapses t =>
    match p.timeouts t with
    | some (run, deps) =>
      ({ p with timeouts := Function.update p.timeouts t none }).connect run deps
    | none => p

/-! ### One connection -/

/-- Its close will be answered. -/
def Hooked (s : PageSocket) : Prop := s.onclose = true ∧ s.phase ≠ .closed

/-- The latest run has a socket, or it waits to open the next, or it has nothing. -/
inductive Line (p : SocketPage) : Prop
  | off (hdeps : p.deps = none) (hsockets : ∀ ws s, p.sockets ws = some s → ¬Hooked s)
    (htimeouts : ∀ t, p.timeouts t = none)
  | online (d : SocketDeps) (ws : ℕ) (s : PageSocket) (hdeps : p.deps = some d)
    (href : p.wsRef = some ws) (hws : p.sockets ws = some s) (hhooked : Hooked s)
    (hd : s.deps = d) (hrun : s.run + 1 = p.runs)
    (hothers : ∀ ws' s', p.sockets ws' = some s' → Hooked s' → ws' = ws)
    (htimeouts : ∀ t, p.timeouts t = none)
  | waiting (d : SocketDeps) (t run : ℕ) (hdeps : p.deps = some d) (href : p.reconnectRef = some t)
    (ht : p.timeouts t = some (run, d)) (hrun : run + 1 = p.runs)
    (hothers : ∀ t' x, p.timeouts t' = some x → t' = t)
    (hsockets : ∀ ws s, p.sockets ws = some s → ¬Hooked s)

structure Sound (p : SocketPage) : Prop where
  line : Line p
  active_iff : ∀ r, p.active r = true ↔ p.deps.isSome = true ∧ r + 1 = p.runs
  listening_hooked : ∀ ws s, p.sockets ws = some s → Listening s → Hooked s
  socket_lt : ∀ ws s, p.sockets ws = some s → ws < p.nextSocket

theorem sound_start : Sound start := by
  refine ⟨.off rfl nofun fun _ => rfl, fun r => ?_, nofun, nofun⟩
  exact iff_of_false nofun fun h => nomatch h.1

/-- What is left of a run that was cleaned up. -/
structure Quiet (p : SocketPage) : Prop where
  inactive : ∀ r, p.active r = false
  sockets : ∀ ws s, p.sockets ws = some s → ¬Hooked s ∧ ¬Listening s
  timeouts : ∀ t, p.timeouts t = none
  socket_lt : ∀ ws s, p.sockets ws = some s → ws < p.nextSocket

theorem modify_sockets {p : SocketPage} {ws ws' : ℕ} {f : PageSocket → PageSocket}
    {s' : PageSocket} (h : (p.modify ws f).sockets ws' = some s') :
    ∃ s, p.sockets ws' = some s ∧ (ws' = ws ∧ s' = f s ∨ ws' ≠ ws ∧ s' = s) := by
  by_cases hws : ws' = ws
  · subst hws
    simp only [modify, Function.update_self] at h
    obtain ⟨s, hs, hf⟩ := Option.map_eq_some_iff.mp h
    exact ⟨s, hs, Or.inl ⟨rfl, hf.symm⟩⟩
  · simp only [modify, Function.update_of_ne hws] at h
    exact ⟨s', h, Or.inr ⟨hws, rfl⟩⟩

theorem modify_self {p : SocketPage} {ws : ℕ} {f : PageSocket → PageSocket} {s : PageSocket}
    (h : p.sockets ws = some s) : (p.modify ws f).sockets ws = some (f s) := by
  simp only [modify, Function.update_self, h, Option.map_some]

theorem hooked_close (s : PageSocket) : Hooked s.close ↔ Hooked s := by
  unfold PageSocket.close
  split
  · rename_i hlive
    refine ⟨fun h => ⟨h.1, ?_⟩, fun h => ⟨h.1, nofun⟩⟩
    rcases hlive with hphase | hphase <;> rw [hphase] <;> exact nofun
  · exact Iff.rfl

theorem not_listening_close (s : PageSocket) : ¬Listening s.close := by
  unfold PageSocket.close
  split
  · rintro (h | h) <;> cases h
  · assumption

/-- A change of one socket that is hooked after it exactly if it was. -/
theorem Sound.modify {p : SocketPage} (h : Sound p) {ws : ℕ} {f : PageSocket → PageSocket}
    (hhooked : ∀ s, p.sockets ws = some s → (Hooked (f s) ↔ Hooked s))
    (hlive : ∀ s, Listening (f s) → Listening s)
    (hkeep : ∀ s, (f s).deps = s.deps ∧ (f s).run = s.run) : Sound (p.modify ws f) := by
  obtain ⟨line, active, live, lt⟩ := h
  have hback : ∀ ws' s', (p.modify ws f).sockets ws' = some s' →
      ∃ s, p.sockets ws' = some s ∧ (Hooked s' ↔ Hooked s) ∧ (Listening s' → Listening s) := by
    intro ws' s' hs'
    obtain ⟨s, hs, ⟨rfl, rfl⟩ | ⟨-, rfl⟩⟩ := modify_sockets hs'
    · exact ⟨s, hs, hhooked s hs, hlive s⟩
    · exact ⟨s', hs, Iff.rfl, id⟩
  have hnone : (∀ ws' s, p.sockets ws' = some s → ¬Hooked s) →
      ∀ ws' s', (p.modify ws f).sockets ws' = some s' → ¬Hooked s' := by
    intro hno ws' s' hs' hh
    obtain ⟨s, hs, hiff, -⟩ := hback ws' s' hs'
    exact hno ws' s hs (hiff.mp hh)
  refine ⟨?_, active, fun ws' s' hs' hl => ?_, fun ws' s' hs' => ?_⟩
  · cases line with
    | off hdeps hsockets htimeouts => exact .off hdeps (hnone hsockets) htimeouts
    | online d ws₀ s hdeps href hws hh hd hrun hothers htimeouts =>
      by_cases heq : ws₀ = ws
      · subst heq
        refine .online d ws₀ (f s) hdeps href (modify_self hws) ((hhooked s hws).mpr hh)
          ((hkeep s).1.trans hd) (by rw [(hkeep s).2]; exact hrun) ?_ htimeouts
        intro ws' s' hs' hh'
        obtain ⟨s'', hs'', hiff, -⟩ := hback ws' s' hs'
        exact hothers ws' s'' hs'' (hiff.mp hh')
      · refine .online d ws₀ s hdeps href ?_ hh hd hrun ?_ htimeouts
        · simp only [SocketPage.modify, Function.update_of_ne heq]
          exact hws
        · intro ws' s' hs' hh'
          obtain ⟨s'', hs'', hiff, -⟩ := hback ws' s' hs'
          exact hothers ws' s'' hs'' (hiff.mp hh')
    | waiting d t run hdeps href ht hrun hothers hsockets =>
      exact .waiting d t run hdeps href ht hrun hothers (hnone hsockets)
  · obtain ⟨s, hs, hiff, hl'⟩ := hback ws' s' hs'
    exact hiff.mpr (live ws' s hs (hl' hl))
  · obtain ⟨s, hs, -⟩ := hback ws' s' hs'
    exact lt ws' s hs

/-- A run of the effect begins where nothing is left of the one before. -/
theorem sound_effect {p : SocketPage} (h : Quiet p) (deps : Option SocketDeps) :
    Sound (p.effect deps) := by
  have hactive : ∀ r, Function.update p.active p.runs deps.isSome r = true ↔
      deps.isSome = true ∧ r + 1 = p.runs + 1 := by
    intro r
    by_cases hr : r = p.runs
    · rw [hr, Function.update_self]
      exact (and_iff_left rfl).symm
    · rw [Function.update_of_ne hr, h.inactive]
      exact iff_of_false nofun fun hc => hr (by omega)
  cases deps with
  | none =>
    refine ⟨.off rfl (fun ws s hs => (h.sockets ws s hs).1) h.timeouts, hactive, ?_, h.socket_lt⟩
    exact fun ws s hs hlive => absurd hlive (h.sockets ws s hs).2
  | some d =>
    have hrun : Function.update p.active p.runs (some d).isSome p.runs = true :=
      Function.update_self ..
    simp only [effect, connect, hrun, if_true]
    have hsocket : ∀ ws s, Function.update p.sockets p.nextSocket
        (some ⟨d, p.runs, .connecting, true⟩) ws = some s → ws ≠ p.nextSocket →
        p.sockets ws = some s := by
      intro ws s hs hne
      rwa [Function.update_of_ne hne] at hs
    refine ⟨.online d p.nextSocket ⟨d, p.runs, .connecting, true⟩ rfl rfl (Function.update_self ..)
      ⟨rfl, nofun⟩ rfl rfl ?_ h.timeouts, hactive, ?_, ?_⟩
    · intro ws s hs hh
      by_contra hne
      exact (h.sockets ws s (hsocket ws s hs hne)).1 hh
    · intro ws s hs hlive
      by_cases hne : ws = p.nextSocket
      · rw [hne] at hs
        simp only [Function.update_self, Option.some.injEq] at hs
        rw [← hs]
        exact ⟨rfl, nofun⟩
      · exact absurd hlive (h.sockets ws s (hsocket ws s hs hne)).2
    · intro ws s hs
      by_cases hne : ws = p.nextSocket
      · rw [hne]
        exact Nat.lt_succ_self _
      · exact Nat.lt_succ_of_lt (h.socket_lt ws s (hsocket ws s hs hne))

theorem quiet_unhook {p : SocketPage} (hactive : ∀ r, p.active r = false)
    (htimeouts : ∀ t, p.timeouts t = none)
    (hsockets : ∀ ws s, p.sockets ws = some s → p.wsRef = some ws ∨ ¬Hooked s ∧ ¬Listening s)
    (hlt : ∀ ws s, p.sockets ws = some s → ws < p.nextSocket) : Quiet p.unhook := by
  unfold unhook
  cases href : p.wsRef with
  | none =>
    refine ⟨hactive, fun ws s hs => ?_, htimeouts, hlt⟩
    rcases hsockets ws s hs with heq | hquiet
    · rw [href] at heq
      cases heq
    · exact hquiet
  | some ws₀ =>
    refine ⟨hactive, fun ws s hs => ?_, htimeouts, fun ws s hs => ?_⟩
    · obtain ⟨s₀, hs₀, ⟨-, rfl⟩ | ⟨hne, rfl⟩⟩ := modify_sockets hs
      · refine ⟨fun hh => ?_, not_listening_close _⟩
        cases ((hooked_close _).mp hh).1
      · rcases hsockets ws s hs₀ with heq | hquiet
        · rw [href] at heq
          exact absurd (Option.some.inj heq).symm hne
        · exact hquiet
    · obtain ⟨s₀, hs₀, -⟩ := modify_sockets hs
      exact hlt ws s₀ hs₀

theorem inactive_after {p : SocketPage}
    (active : ∀ r, p.active r = true ↔ p.deps.isSome = true ∧ r + 1 = p.runs) (r : ℕ) :
    Function.update p.active (p.runs - 1) false r = false := by
  by_cases hr : r = p.runs - 1
  · rw [hr, Function.update_self]
  · rw [Function.update_of_ne hr]
    refine Bool.eq_false_iff.mpr fun hc => hr ?_
    have hrun := ((active r).mp hc).2
    omega

theorem quiet_cleanup {p : SocketPage} (h : Sound p) : Quiet p.cleanup := by
  obtain ⟨line, active, live, lt⟩ := h
  unfold cleanup
  cases line with
  | off hdeps hsockets htimeouts =>
    rw [hdeps]
    refine ⟨fun r => ?_, fun ws s hs => ⟨hsockets ws s hs, ?_⟩, htimeouts, lt⟩
    · refine Bool.eq_false_iff.mpr fun hc => ?_
      have hsome := ((active r).mp hc).1
      rw [hdeps] at hsome
      cases hsome
    · exact fun hlive => hsockets ws s hs (live ws s hs hlive)
  | online d ws₀ s hdeps href hws hh hd hrun hothers htimeouts =>
    rw [hdeps]
    have hsockets : ∀ ws s, p.sockets ws = some s →
        p.wsRef = some ws ∨ ¬Hooked s ∧ ¬Listening s := by
      intro ws s' hs'
      by_cases hws' : ws = ws₀
      · rw [hws']
        exact Or.inl href
      · have hnot : ¬Hooked s' := fun hh' => hws' (hothers ws s' hs' hh')
        exact Or.inr ⟨hnot, fun hlive => hnot (live ws s' hs' hlive)⟩
    cases hrec : p.reconnectRef with
    | none => exact quiet_unhook (inactive_after active) htimeouts hsockets lt
    | some t =>
      refine quiet_unhook (inactive_after active) (fun t' => ?_) hsockets lt
      by_cases ht' : t' = t
      · simp only [clearTimeout, ht', Function.update_self]
      · simp only [clearTimeout, Function.update_of_ne ht', htimeouts]
  | waiting d t run hdeps href ht hrun hothers hsockets =>
    rw [hdeps, href]
    refine quiet_unhook (inactive_after active) (fun t' => ?_) (fun ws s hs => ?_) lt
    · by_cases ht' : t' = t
      · simp only [clearTimeout, ht', Function.update_self]
      · simp only [clearTimeout, Function.update_of_ne ht']
        exact Option.eq_none_iff_forall_ne_some.mpr fun x hx => ht' (hothers t' x hx)
    · exact Or.inr ⟨hsockets ws s hs, fun hlive => hsockets ws s hs (live ws s hs hlive)⟩

theorem sound_closes {p : SocketPage} (h : Sound p) {ws : ℕ} {s : PageSocket}
    (hs : p.sockets ws = some s) (hopen : s.phase ≠ .closed) :
    Sound ((p.modify ws fun s => { s with phase := .closed }).onClose s) := by
  have hdead : ∀ s : PageSocket, ¬Listening { s with phase := SocketPhase.closed } := by
    rintro s (hc | hc) <;> cases hc
  cases honclose : s.onclose with
  | false =>
    rw [onClose, honclose, if_neg (fun hc => nomatch hc.1)]
    refine h.modify (fun s' hs' => ?_) (fun s' hl => absurd hl (hdead s')) fun _ => ⟨rfl, rfl⟩
    obtain rfl : s = s' := Option.some.inj (hs.symm.trans hs')
    refine iff_of_false (fun hh => hh.2 rfl) fun hh => ?_
    rw [hh.1] at honclose
    cases honclose
  | true =>
    have hhooked : Hooked s := ⟨honclose, hopen⟩
    obtain ⟨line, active, live, lt⟩ := h
    cases line with
    | off hdeps hsockets htimeouts => exact absurd hhooked (hsockets ws s hs)
    | waiting d t run hdeps href ht hrun hothers hsockets =>
      exact absurd hhooked (hsockets ws s hs)
    | online d ws₀ s₀ hdeps href hws hh hd hrun hothers htimeouts =>
      obtain rfl := hothers ws s hs hhooked
      obtain rfl : s = s₀ := Option.some.inj (hs.symm.trans hws)
      have hactive : p.active s.run = true :=
        (active s.run).mpr ⟨by rw [hdeps]; rfl, hrun⟩
      have hnone : ∀ ws' s', (p.modify ws fun s => { s with phase := .closed }).sockets ws' =
          some s' → ¬Hooked s' := by
        intro ws' s' hs' hh'
        obtain ⟨s'', hs'', ⟨-, rfl⟩ | ⟨hne, rfl⟩⟩ := modify_sockets hs'
        · exact hh'.2 rfl
        · exact hne (hothers ws' s' hs'' hh')
      rw [onClose, honclose, if_pos ⟨rfl, hactive⟩]
      refine ⟨.waiting d p.nextTimeout s.run hdeps rfl ?_ hrun ?_ hnone, active, ?_, ?_⟩
      · rw [← hd]
        exact Function.update_self ..
      · intro t' x hx
        by_contra ht'
        have hkept : p.timeouts t' = some x := by
          rw [← hx]
          exact (Function.update_of_ne ht' ..).symm
        rw [htimeouts] at hkept
        cases hkept
      · intro ws' s' hs' hl
        obtain ⟨s'', hs'', ⟨-, rfl⟩ | ⟨hne, rfl⟩⟩ := modify_sockets hs'
        · exact absurd hl (hdead s'')
        · exact live ws' s' hs'' hl
      · intro ws' s' hs'
        obtain ⟨s'', hs'', -⟩ := modify_sockets hs'
        exact lt ws' s'' hs''

theorem sound_elapses {p : SocketPage} (h : Sound p) {t run : ℕ} {d : SocketDeps}
    (ht : p.timeouts t = some (run, d)) :
    Sound ({ p with timeouts := Function.update p.timeouts t none }.connect run d) := by
  obtain ⟨line, active, live, lt⟩ := h
  cases line with
  | off hdeps hsockets htimeouts =>
    rw [htimeouts] at ht
    cases ht
  | online d' ws₀ s hdeps href hws hh hd hrun hothers htimeouts =>
    rw [htimeouts] at ht
    cases ht
  | waiting d' t' run' hdeps href ht' hrun hothers hsockets =>
    obtain rfl := hothers t (run, d) ht
    obtain ⟨rfl, rfl⟩ : run = run' ∧ d = d' := by
      rw [ht] at ht'
      exact Prod.mk.inj (Option.some.inj ht')
    have hactive : p.active run = true := (active run).mpr ⟨by rw [hdeps]; rfl, hrun⟩
    have hsocket : ∀ ws s, Function.update p.sockets p.nextSocket
        (some ⟨d, run, .connecting, true⟩) ws = some s → ws ≠ p.nextSocket →
        p.sockets ws = some s := by
      intro ws s hs hne
      rwa [Function.update_of_ne hne] at hs
    simp only [connect, hactive, if_true]
    refine ⟨.online d p.nextSocket ⟨d, run, .connecting, true⟩ hdeps rfl
      (Function.update_self ..) ⟨rfl, nofun⟩ rfl hrun ?_ ?_, active, ?_, ?_⟩
    · intro ws s hs hh
      by_contra hne
      exact hsockets ws s (hsocket ws s hs hne) hh
    · intro t'
      by_cases htt : t' = t
      · simp only [htt, Function.update_self]
      · simp only [Function.update_of_ne htt]
        exact Option.eq_none_iff_forall_ne_some.mpr fun x hx => htt (hothers t' x hx)
    · intro ws s hs hlive
      by_cases hne : ws = p.nextSocket
      · rw [hne] at hs
        simp only [Function.update_self, Option.some.injEq] at hs
        rw [← hs]
        exact ⟨rfl, nofun⟩
      · exact live ws s (hsocket ws s hs hne) hlive
    · intro ws s hs
      by_cases hne : ws = p.nextSocket
      · rw [hne]
        exact Nat.lt_succ_self _
      · exact Nat.lt_succ_of_lt (lt ws s (hsocket ws s hs hne))

theorem Sound.hears {p : SocketPage} (h : Sound p) (m : Option SocketMessage) :
    Sound { p with lastMessage := m } := by
  obtain ⟨line, active, live, lt⟩ := h
  refine ⟨?_, active, live, lt⟩
  cases line with
  | off hdeps hsockets htimeouts => exact .off hdeps hsockets htimeouts
  | online d ws s hdeps href hws hh hd hrun hothers htimeouts =>
    exact .online d ws s hdeps href hws hh hd hrun hothers htimeouts
  | waiting d t run hdeps href ht hrun hothers hsockets =>
    exact .waiting d t run hdeps href ht hrun hothers hsockets

theorem Sound.onMessage {p : SocketPage} (h : Sound p) (s : PageSocket)
    (msg : Option SocketMessage) : Sound (p.onMessage s msg) := by
  unfold SocketPage.onMessage
  split
  · split
    · exact h.hears _
    · exact h
  · exact h

theorem Sound.step {p : SocketPage} (h : Sound p) (e : SocketEvent) : Sound (p.step e) := by
  cases e with
  | render token userId =>
    simp only [SocketPage.step]
    split
    · exact h
    · exact sound_effect (quiet_cleanup h) _
  | receives ws msg =>
    simp only [SocketPage.step]
    split
    · exact h.onMessage _ _
    · exact h
  | opens ws =>
    refine h.modify (fun s _ => ?_) (fun s => ?_) fun s => ?_
    · split
      · rename_i hphase
        refine and_congr_right fun _ => iff_of_true nofun ?_
        rw [hphase]
        exact nofun
      · exact Iff.rfl
    · split
      · exact fun _ => Or.inl ‹_›
      · exact id
    · split <;> exact ⟨rfl, rfl⟩
  | fails ws =>
    refine h.modify (fun s _ => hooked_close s) (fun s hl => absurd hl (not_listening_close s))
      fun s => ?_
    unfold PageSocket.close
    split <;> exact ⟨rfl, rfl⟩
  | closes ws =>
    simp only [SocketPage.step]
    split
    · split
      · exact h
      · exact sound_closes h ‹_› ‹_›
    · exact h
  | elapses t =>
    simp only [SocketPage.step]
    split
    · exact sound_elapses h ‹_›
    · exact h

/-- Signed in: one connection for the token and the user id of the page, or one
timeout that will open it, never both. Signed out: neither. No other socket can
hand over a message. -/
def OneConnection (p : SocketPage) : Prop :=
  match p.deps with
  | none => (∀ ws s, p.sockets ws = some s → ¬Listening s) ∧ ∀ t, p.timeouts t = none
  | some d =>
    (∃ ws s, p.sockets ws = some s ∧ s.phase ≠ .closed ∧ s.deps = d ∧
      (∀ ws' s', p.sockets ws' = some s' → Listening s' → ws' = ws) ∧ ∀ t, p.timeouts t = none) ∨
    ∃ t run, p.timeouts t = some (run, d) ∧ (∀ t' x, p.timeouts t' = some x → t' = t) ∧
      ∀ ws s, p.sockets ws = some s → ¬Listening s

theorem Sound.oneConnection {p : SocketPage} (h : Sound p) : OneConnection p := by
  obtain ⟨line, active, live, lt⟩ := h
  unfold OneConnection
  cases line with
  | off hdeps hsockets htimeouts =>
    rw [hdeps]
    exact ⟨fun ws s hs hl => hsockets ws s hs (live ws s hs hl), htimeouts⟩
  | online d ws₀ s hdeps href hws hh hd hrun hothers htimeouts =>
    rw [hdeps]
    exact Or.inl ⟨ws₀, s, hws, hh.2, hd,
      fun ws' s' hs' hl => hothers ws' s' hs' (live ws' s' hs' hl), htimeouts⟩
  | waiting d t run hdeps href ht hrun hothers hsockets =>
    rw [hdeps]
    exact Or.inr ⟨t, run, ht, hothers, fun ws s hs hl => hsockets ws s hs (live ws s hs hl)⟩

theorem always_sound (es : List SocketEvent) : Always SocketPage.step Sound start es :=
  always_of_along (P := fun _ _ => True) (fun _ e h _ => h.step e) sound_start
    (along_of_forall fun _ _ _ => trivial)

/-- Whatever `lastMessage` becomes came over a socket of the token and the user id
the page has at that moment. -/
def HearsItsUser (p : SocketPage) (e : SocketEvent) : Prop :=
  (p.step e).lastMessage = p.lastMessage ∨
    ∃ ws m s, e = .receives ws (some m) ∧ p.sockets ws = some s ∧ p.deps = some s.deps ∧
      (p.step e).lastMessage = some m

theorem Sound.deps_of_listening {p : SocketPage} (h : Sound p) {ws : ℕ} {s : PageSocket}
    (hs : p.sockets ws = some s) (hlive : Listening s) : p.deps = some s.deps := by
  have hhooked := h.listening_hooked ws s hs hlive
  cases h.line with
  | off hdeps hsockets htimeouts => exact absurd hhooked (hsockets ws s hs)
  | online d ws₀ s₀ hdeps href hws hh hd hrun hothers htimeouts =>
    obtain rfl := hothers ws s hs hhooked
    obtain rfl : s = s₀ := Option.some.inj (hs.symm.trans hws)
    rw [hdeps, hd]
  | waiting d t run hdeps href ht hrun hothers hsockets =>
    exact absurd hhooked (hsockets ws s hs)

theorem unhook_lastMessage (p : SocketPage) : p.unhook.lastMessage = p.lastMessage := by
  unfold unhook
  split <;> rfl

theorem cleanup_lastMessage (p : SocketPage) : p.cleanup.lastMessage = p.lastMessage := by
  unfold cleanup
  split
  · rfl
  · rw [unhook_lastMessage]
    unfold clearTimeout
    split <;> rfl

theorem connect_lastMessage (p : SocketPage) (run : ℕ) (d : SocketDeps) :
    (p.connect run d).lastMessage = p.lastMessage := by
  unfold connect
  split <;> rfl

theorem Sound.hearsItsUser {p : SocketPage} (h : Sound p) (e : SocketEvent) :
    HearsItsUser p e := by
  cases e with
  | render token userId =>
    refine Or.inl ?_
    simp only [SocketPage.step]
    split
    · rfl
    · rw [← cleanup_lastMessage p]
      unfold effect
      dsimp only
      split
      · rfl
      · exact connect_lastMessage ..
  | opens ws => exact Or.inl rfl
  | fails ws => exact Or.inl rfl
  | receives ws msg =>
    unfold HearsItsUser
    simp only [SocketPage.step]
    cases hs : p.sockets ws with
    | none => exact Or.inl rfl
    | some s =>
      cases msg with
      | none => exact Or.inl rfl
      | some m =>
        simp only [SocketPage.onMessage]
        split
        · rename_i hopen
          exact Or.inr ⟨ws, m, s, rfl, hs, h.deps_of_listening hs (Or.inr hopen.1), rfl⟩
        · exact Or.inl rfl
  | closes ws =>
    refine Or.inl ?_
    simp only [SocketPage.step, onClose]
    split
    · split
      · rfl
      · split <;> rfl
    · rfl
  | elapses t =>
    refine Or.inl ?_
    simp only [SocketPage.step]
    split
    · exact connect_lastMessage ..
    · rfl

/-- Through any order of sign-ins, sign-outs, messages, failures, closes and timeouts. -/
theorem page_has_one_connection (es : List SocketEvent) :
    Always SocketPage.step OneConnection start es ∧
      Along SocketPage.step HearsItsUser start es := by
  constructor
  · exact (always_sound es).mono fun _ h => h.oneConnection
  · exact along_of_invariant (fun _ e h => h.step e) (fun _ e h => h.hearsItsUser e) sound_start

end SocketPage

end HotelMs
