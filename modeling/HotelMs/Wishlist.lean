import HotelMs.Api
import HotelMs.Lib.Runs
import Mathlib.Data.Finset.Basic
import Mathlib.Data.Multiset.Filter

/-!
# Saved rooms

`contexts/WishlistContext.jsx` against `api/v1/user/wishlist.py`. A toggle
changes the set on the page at once, sends one request, and takes the change
back if that fails. Requests in flight are in no order, so they are multisets.
A `load()` in flight is not modelled.
-/

namespace HotelMs

open Tables Runs

/-- `wasSaved` is read off the render that the toggle was made from. -/
structure WishRequest where
  roomId : ℤ
  wasSaved : Bool
  deriving DecidableEq

def WishRequest.handle (q : WishRequest) (env : Env) (s : Store) (token : Bearer) :
    Except Error Store :=
  if q.wasSaved then (unsaveRoom s token q.roomId).map Prod.snd
  else (saveRoom env s token q.roomId).map Prod.snd

def listSavedRooms (s : Store) (token : Bearer) : Except Error (List WishlistItem) := do
  let user ← getCurrentUser s token
  return s.wishlistItems.select fun w => w.userId = user.id && w.roomId.isSome

/-- The room ids in the user's rows. -/
def savedRoomIds (s : Store) (userId : ℤ) : Finset ℤ :=
  ((s.wishlistItems.select fun w => w.userId = userId && w.roomId.isSome).filterMap
    WishlistItem.roomId).toFinset

/-- `savedIds` is the state with every update so far, `rendered` that of the
latest render. A request is sent until the server has taken or refused it or it
is lost; then its answer is on the way. -/
structure WishlistPage where
  store : Store
  userId : ℤ
  savedIds : Finset ℤ
  rendered : Finset ℤ
  sent : Multiset WishRequest
  failed : Multiset WishRequest
  succeeded : Multiset WishRequest

inductive WishEvent
  | toggle (roomId : ℤ)
  | render
  | arrive (q : WishRequest) (env : Env)
  | lose (q : WishRequest)
  | answer (q : WishRequest) (ok : Bool)

namespace WishlistPage

def load (s : Store) (userId : ℤ) : Except Error WishlistPage := do
  let items ← listSavedRooms s (some userId)
  let savedIds := (items.filterMap WishlistItem.roomId).toFinset
  return ⟨s, userId, savedIds, savedIds, 0, 0, 0⟩

-- the updater takes the state at the time it runs, `wasSaved` does not
def mark (savedIds : Finset ℤ) (roomId : ℤ) (saved : Bool) : Finset ℤ :=
  if saved then insert roomId savedIds else savedIds.erase roomId

def toggle (w : WishlistPage) (roomId : ℤ) : WishlistPage :=
  let wasSaved := decide (roomId ∈ w.rendered)
  { w with
    savedIds := mark w.savedIds roomId (!wasSaved)
    sent := ⟨roomId, wasSaved⟩ ::ₘ w.sent }

/-- The request fails, without an effect at the server. -/
def fail (w : WishlistPage) (q : WishRequest) : WishlistPage :=
  { w with sent := w.sent.erase q, failed := q ::ₘ w.failed }

def arrive (w : WishlistPage) (q : WishRequest) (env : Env) : WishlistPage :=
  match q.handle env w.store (some w.userId) with
  | .ok s => { w with store := s, sent := w.sent.erase q, succeeded := q ::ₘ w.succeeded }
  | .error _ => w.fail q

def revert (w : WishlistPage) (q : WishRequest) : WishlistPage :=
  { w with savedIds := mark w.savedIds q.roomId q.wasSaved, failed := w.failed.erase q }

def step (w : WishlistPage) : WishEvent → WishlistPage
  | .toggle roomId => w.toggle roomId
  | .render => { w with rendered := w.savedIds }
  | .arrive q env => if q ∈ w.sent then w.arrive q env else w
  | .lose q => if q ∈ w.sent then w.fail q else w
  | .answer q true =>
    if q ∈ w.succeeded then { w with succeeded := w.succeeded.erase q } else w
  | .answer q false => if q ∈ w.failed then w.revert q else w

def Quiet (w : WishlistPage) : Prop := w.sent = 0 ∧ w.failed = 0 ∧ w.succeeded = 0

/-- With nothing in flight, the page shows the rooms that are saved. -/
def Converged (w : WishlistPage) : Prop := w.Quiet → w.savedIds = savedRoomIds w.store w.userId

/-- The requests that did not take effect, or not yet. -/
def pending (w : WishlistPage) : Multiset WishRequest := w.sent + w.failed

/-- A room is toggled from a render that shows its state, while each request in
flight for it has taken effect at the server. -/
def TogglesSettled (w : WishlistPage) : WishEvent → Prop
  | .toggle roomId => (roomId ∈ w.rendered ↔ roomId ∈ w.savedIds) ∧
      ∀ q ∈ w.pending, q.roomId ≠ roomId
  | _ => True

instance (w : WishlistPage) : ∀ e, Decidable (w.TogglesSettled e)
  | .toggle _ => inferInstanceAs (Decidable (_ ∧ _))
  | .render | .arrive _ _ | .lose _ | .answer _ _ => isTrue trivial

end WishlistPage

/-! ### What a request does at the server -/

/-- The constraint `uq_wishlist_user_room`. -/
def OnePerRoom (s : Store) : Prop :=
  ∀ w ∈ s.wishlistItems.rows, ∀ w' ∈ s.wishlistItems.rows, w.userId = w'.userId →
    w.roomId.isSome → w.roomId = w'.roomId → w = w'

theorem mem_savedRoomIds {s : Store} {u r : ℤ} :
    r ∈ savedRoomIds s u ↔ ∃ w ∈ s.wishlistItems.rows, w.userId = u ∧ w.roomId = some r := by
  simp only [savedRoomIds, List.mem_toFinset, List.mem_filterMap, Table.mem_select,
    Bool.and_eq_true, decide_eq_true_eq]
  constructor
  · intro h
    obtain ⟨w, ⟨hmem, huser, _⟩, hroom⟩ := h
    exact ⟨w, hmem, huser, hroom⟩
  · intro h
    obtain ⟨w, hmem, huser, hroom⟩ := h
    exact ⟨w, ⟨hmem, huser, by rw [hroom]; rfl⟩, hroom⟩

section

variable {s s' : Store} {u k : ℤ} {env : Env}

theorem savedItem_eq_none : savedItem s u (.room k) = none ↔ k ∉ savedRoomIds s u := by
  simp only [savedItem, List.head?_eq_none_iff, List.eq_nil_iff_forall_not_mem, Table.mem_select,
    WishTarget.matches, Bool.and_eq_true, decide_eq_true_eq, mem_savedRoomIds]
  constructor
  · intro h hin
    obtain ⟨w, hmem, huser, hroom⟩ := hin
    exact h w ⟨hmem, huser, hroom⟩
  · intro h w hw
    exact h ⟨w, hw⟩

theorem savedItem_some {w : WishlistItem} (h : savedItem s u (.room k) = some w) :
    w ∈ s.wishlistItems.rows ∧ w.userId = u ∧ w.roomId = some k := by
  obtain ⟨hmem, hmatch⟩ := (Table.mem_select _).mp (List.mem_of_mem_head? h)
  simp only [WishTarget.matches, Bool.and_eq_true, decide_eq_true_eq] at hmatch
  exact ⟨hmem, hmatch⟩

theorem saveRoom_mem {item : WishlistItem} (h : saveRoom env s (some u) k = .ok (item, s')) :
    (∀ r, r ∈ savedRoomIds s' u ↔ r = k ∨ r ∈ savedRoomIds s u) ∧
      (OnePerRoom s → OnePerRoom s') := by
  simp only [saveRoom, saveItem, bind_eq_ok] at h
  obtain ⟨user, huser, h⟩ := h
  rw [id_of_getCurrentUser huser] at h
  cases hitem : savedItem s u (.room k) with
  | some w =>
    rw [hitem] at h
    cases h
    refine ⟨fun r => ⟨Or.inr, fun hr => ?_⟩, id⟩
    rcases hr with rfl | hr
    · exact mem_savedRoomIds.mpr ⟨item, savedItem_some hitem⟩
    · exact hr
  | none =>
    simp only [hitem, bind_eq_ok] at h
    obtain ⟨_, _, h⟩ := h
    cases h
    have hnew := savedItem_eq_none.mp hitem
    constructor
    · intro r
      simp only [mem_savedRoomIds, Table.mem_insert, stamp_wishlistItem]
      constructor
      · intro hr
        obtain ⟨w, hw | rfl, huser, hroom⟩ := hr
        · exact Or.inr ⟨w, hw, huser, hroom⟩
        · exact Or.inl (Option.some.inj hroom).symm
      · intro hr
        rcases hr with rfl | ⟨w, hw, hrow⟩
        · exact ⟨_, Or.inr rfl, rfl, rfl⟩
        · exact ⟨w, Or.inl hw, hrow⟩
    · intro hone w hw w' hw' huser hroom heq
      rw [Table.mem_insert] at hw hw'
      rcases hw with hw | rfl <;> rcases hw' with hw' | rfl
      · exact hone w hw w' hw' huser hroom heq
      · exact absurd (mem_savedRoomIds.mpr ⟨w, hw, huser, heq⟩) hnew
      · exact absurd (mem_savedRoomIds.mpr ⟨w', hw', huser.symm, heq.symm⟩) hnew
      · rfl

theorem unsaveRoom_mem (hone : OnePerRoom s) {a : Unit}
    (h : unsaveRoom s (some u) k = .ok (a, s')) :
    (∀ r, r ∈ savedRoomIds s' u ↔ r ≠ k ∧ r ∈ savedRoomIds s u) ∧ OnePerRoom s' := by
  simp only [unsaveRoom, unsaveItem, bind_eq_ok, found_eq_ok] at h
  obtain ⟨user, huser, item, hitem, h⟩ := h
  rw [id_of_getCurrentUser huser] at hitem
  obtain ⟨hmem, hitemUser, hitemRoom⟩ := savedItem_some hitem
  cases h
  have hrows : ∀ w, w ∈ (s.wishlistItems.delete item.id).rows ↔
      w ∈ s.wishlistItems.rows ∧ w.id ≠ item.id := by
    intro w
    simp only [Table.delete, Table.mem_deleteWhere, key_wishlistItem, decide_eq_false_iff_not]
  constructor
  · intro r
    simp only [mem_savedRoomIds, hrows]
    constructor
    · intro hr
      obtain ⟨w, ⟨hw, hne⟩, huser', hroom⟩ := hr
      refine ⟨fun hrk => hne ?_, w, hw, huser', hroom⟩
      rw [hone w hw item hmem (huser'.trans hitemUser.symm) (by rw [hroom]; rfl)
        (by rw [hroom, hitemRoom, hrk])]
    · intro hr
      obtain ⟨hrk, w, hw, huser', hroom⟩ := hr
      refine ⟨w, ⟨hw, fun hid => hrk ?_⟩, huser', hroom⟩
      have hsame : w = item := s.wishlistItems.eq_of_key hw hmem hid
      rw [hsame, hitemRoom] at hroom
      exact (Option.some.inj hroom).symm
  · exact fun w hw w' hw' => hone w ((hrows w).mp hw).1 w' ((hrows w').mp hw').1

end

theorem handle_mem {q : WishRequest} {env : Env} {s s' : Store} {u : ℤ} (hone : OnePerRoom s)
    (h : q.handle env s (some u) = .ok s') :
    (q.roomId ∈ savedRoomIds s' u ↔ q.wasSaved = false) ∧
      (∀ r ≠ q.roomId, r ∈ savedRoomIds s' u ↔ r ∈ savedRoomIds s u) ∧ OnePerRoom s' := by
  unfold WishRequest.handle at h
  split at h
  next hsaved =>
    cases hresult : unsaveRoom s (some u) q.roomId with
    | error e =>
      rw [hresult] at h
      cases h
    | ok a =>
      rw [hresult] at h
      cases h
      obtain ⟨hmem, hone'⟩ := unsaveRoom_mem hone hresult
      refine ⟨?_, fun r hr => ?_, hone'⟩
      · rw [hmem, hsaved]
        simp
      · rw [hmem]
        exact and_iff_right hr
  next hsaved =>
    cases hresult : saveRoom env s (some u) q.roomId with
    | error e =>
      rw [hresult] at h
      cases h
    | ok a =>
      rw [hresult] at h
      cases h
      obtain ⟨hmem, hone'⟩ := saveRoom_mem hresult
      refine ⟨?_, fun r hr => ?_, hone' hone⟩
      · rw [hmem]
        simp [Bool.eq_false_of_not_eq_true hsaved]
      · rw [hmem]
        exact or_iff_right hr

theorem handle_ok {q : WishRequest} {env : Env} {s : Store} {u : ℤ} {user : User}
    (huser : getCurrentUser s (some u) = .ok user)
    (hunsave : q.wasSaved = true → q.roomId ∈ savedRoomIds s u)
    (hsave : q.wasSaved = false → (s.rooms.get q.roomId).isSome) :
    ∃ s', q.handle env s (some u) = .ok s' := by
  unfold WishRequest.handle
  cases hsaved : q.wasSaved with
  | true =>
    cases hitem : savedItem s u (.room q.roomId) with
    | none => exact absurd (hunsave hsaved) (savedItem_eq_none.mp hitem)
    | some item =>
      have hresult : unsaveRoom s (some u) q.roomId =
          .ok ((), { s with wishlistItems := s.wishlistItems.delete item.id }) := by
        simp only [unsaveRoom, unsaveItem, bind_eq_ok, found_eq_ok, pure_eq_ok]
        exact ⟨user, huser, item, by rw [id_of_getCurrentUser huser, hitem], rfl⟩
      rw [if_pos rfl, hresult]
      exact ⟨_, rfl⟩
  | false =>
    have hexists : WishTarget.references s (.room q.roomId) = true := hsave hsaved
    have hresult : ∃ a, saveRoom env s (some u) q.roomId = .ok a := by
      cases hitem : savedItem s user.id (.room q.roomId) with
      | some item =>
        refine ⟨(item, s), ?_⟩
        simp only [saveRoom, saveItem, bind_eq_ok]
        exact ⟨user, huser, by rw [hitem]; rfl⟩
      | none =>
        have hpassed : ensure (WishTarget.references s (.room q.roomId) = true)
            .integrity = .ok () := ensure_eq_ok.mpr hexists
        simp only [saveRoom, saveItem, huser, hitem, hpassed, bind, Except.bind, pure, Except.pure]
        exact ⟨_, rfl⟩
    obtain ⟨a, ha⟩ := hresult
    rw [ha]
    exact ⟨_, rfl⟩

/-! ### One event -/

namespace WishlistPage

/-- The requests about one room that did not take effect, or not yet. -/
def pendingFor (w : WishlistPage) (roomId : ℤ) : Multiset WishRequest :=
  w.pending.filter fun q => q.roomId = roomId

/-- Page and server agree on the room, or one request stands between them. -/
def InStep (w : WishlistPage) (roomId : ℤ) : Prop :=
  (w.pendingFor roomId = 0 ∧ (roomId ∈ w.savedIds ↔ roomId ∈ savedRoomIds w.store w.userId)) ∨
    ∃ q, w.pendingFor roomId = {q} ∧ (roomId ∈ w.savedIds ↔ q.wasSaved = false) ∧
      (roomId ∈ savedRoomIds w.store w.userId ↔ q.wasSaved = true)

def AllInStep (w : WishlistPage) : Prop := OnePerRoom w.store ∧ ∀ r, w.InStep r

theorem mem_mark {savedIds : Finset ℤ} {roomId r : ℤ} {saved : Bool} :
    r ∈ mark savedIds roomId saved ↔ if r = roomId then saved = true else r ∈ savedIds := by
  unfold mark
  by_cases hr : r = roomId <;> cases saved <;> simp [hr]

variable {w : WishlistPage}

theorem mem_pendingFor {q : WishRequest} {r : ℤ} :
    q ∈ w.pendingFor r ↔ q ∈ w.pending ∧ q.roomId = r := Multiset.mem_filter

theorem mem_of_only {q : WishRequest} {r : ℤ} (h : w.pendingFor r = {q}) :
    q ∈ w.pending ∧ q.roomId = r :=
  mem_pendingFor.mp (h ▸ Multiset.mem_singleton_self q)

theorem roomId_ne_of_none {q : WishRequest} {r : ℤ} (h : w.pendingFor r = 0) (hq : q ∈ w.pending) :
    q.roomId ≠ r := by
  intro hr
  have hin := mem_pendingFor.mpr ⟨hq, hr⟩
  rw [h] at hin
  exact Multiset.notMem_zero q hin

theorem InStep.congr {w' : WishlistPage} {r : ℤ} (h : w.InStep r)
    (hpending : w'.pendingFor r = w.pendingFor r) (hpage : r ∈ w'.savedIds ↔ r ∈ w.savedIds)
    (hserver : r ∈ savedRoomIds w'.store w'.userId ↔ r ∈ savedRoomIds w.store w.userId) :
    w'.InStep r := by
  unfold InStep at h ⊢
  rw [hpending, hpage, hserver]
  exact h

theorem InStep.of_mem {q : WishRequest} (h : w.InStep q.roomId) (hq : q ∈ w.pending) :
    w.pendingFor q.roomId = {q} ∧ (q.roomId ∈ w.savedIds ↔ q.wasSaved = false) ∧
      (q.roomId ∈ savedRoomIds w.store w.userId ↔ q.wasSaved = true) := by
  rcases h with ⟨hnone, _⟩ | ⟨q', hone, hrest⟩
  · exact absurd rfl (roomId_ne_of_none hnone hq)
  · have hin : q ∈ w.pendingFor q.roomId := mem_pendingFor.mpr ⟨hq, rfl⟩
    rw [hone, Multiset.mem_singleton] at hin
    subst hin
    exact ⟨hone, hrest⟩

theorem pendingFor_cons {w' : WishlistPage} {q : WishRequest} (h : w.pending = q ::ₘ w'.pending)
    (r : ℤ) : w.pendingFor r = if q.roomId = r then q ::ₘ w'.pendingFor r else w'.pendingFor r := by
  unfold pendingFor
  rw [h, Multiset.filter_cons]
  split <;> simp

theorem pendingFor_of_ne {w' : WishlistPage} {q : WishRequest} {r : ℤ}
    (h : w.pending = q ::ₘ w'.pending) (hr : r ≠ q.roomId) :
    w'.pendingFor r = w.pendingFor r := by
  rw [pendingFor_cons h r, if_neg hr.symm]

theorem pendingFor_of_taken {w' : WishlistPage} {q : WishRequest} {r : ℤ}
    {rest : Multiset WishRequest} (h : w.pending = q ::ₘ w'.pending) (hr : q.roomId = r)
    (hfor : w.pendingFor r = q ::ₘ rest) : w'.pendingFor r = rest := by
  rw [pendingFor_cons h r, if_pos hr, Multiset.cons_inj_right] at hfor
  exact hfor

theorem pending_toggle (roomId : ℤ) : (w.toggle roomId).pending =
    ⟨roomId, decide (roomId ∈ w.rendered)⟩ ::ₘ w.pending := Multiset.cons_add _ _ _

theorem pending_arrive {q : WishRequest} {env : Env} {s : Store} (hq : q ∈ w.sent)
    (h : q.handle env w.store (some w.userId) = .ok s) :
    w.pending = q ::ₘ (w.arrive q env).pending := by
  unfold arrive
  rw [h]
  show w.sent + w.failed = q ::ₘ (w.sent.erase q + w.failed)
  rw [← Multiset.cons_add, Multiset.cons_erase hq]

theorem toggle_inStep {roomId : ℤ} (h : w.AllInStep)
    (hrender : roomId ∈ w.rendered ↔ roomId ∈ w.savedIds)
    (hsettled : ∀ q ∈ w.pending, q.roomId ≠ roomId) : (w.toggle roomId).AllInStep := by
  refine ⟨h.1, fun r => ?_⟩
  have hfor := pendingFor_cons (w.pending_toggle roomId) r
  by_cases hr : r = roomId
  · subst hr
    have hnone : w.pendingFor r = 0 := Multiset.filter_eq_nil.mpr hsettled
    have hsame : r ∈ w.savedIds ↔ r ∈ savedRoomIds w.store w.userId := by
      rcases h.2 r with ⟨_, hsame⟩ | ⟨q, hone, _⟩
      · exact hsame
      · rw [hone] at hnone
        exact absurd hnone (Multiset.singleton_ne_zero q)
    refine Or.inr ⟨⟨r, decide (r ∈ w.rendered)⟩, ?_, ?_, ?_⟩
    · rw [hfor, if_pos rfl, hnone]
      rfl
    · simp [toggle, mem_mark]
    · simp only [decide_eq_true_eq, hrender, hsame]
      rfl
  · refine (h.2 r).congr ?_ ?_ Iff.rfl
    · rw [hfor, if_neg fun heq => hr heq.symm]
    · simp [toggle, mem_mark, hr]

theorem pending_fail {q : WishRequest} (hq : q ∈ w.sent) : (w.fail q).pending = w.pending := by
  show w.sent.erase q + q ::ₘ w.failed = w.sent + w.failed
  rw [Multiset.add_cons, ← Multiset.cons_add, Multiset.cons_erase hq]

theorem pending_revert {q : WishRequest} (hq : q ∈ w.failed) :
    w.pending = q ::ₘ (w.revert q).pending := by
  show w.sent + w.failed = q ::ₘ (w.sent + w.failed.erase q)
  rw [← Multiset.add_cons, Multiset.cons_erase hq]

theorem mem_revert {q : WishRequest} {r : ℤ} :
    r ∈ (w.revert q).savedIds ↔ if r = q.roomId then q.wasSaved = true else r ∈ w.savedIds :=
  mem_mark

theorem fail_inStep {q : WishRequest} (h : w.AllInStep) (hq : q ∈ w.sent) :
    (w.fail q).AllInStep := by
  refine ⟨h.1, fun r => (h.2 r).congr ?_ Iff.rfl Iff.rfl⟩
  rw [pendingFor, pending_fail hq, pendingFor]

theorem arrive_inStep {q : WishRequest} {env : Env} (h : w.AllInStep) (hq : q ∈ w.sent) :
    (w.arrive q env).AllInStep := by
  cases hhandle : q.handle env w.store (some w.userId) with
  | error e =>
    have hfail : w.arrive q env = w.fail q := by rw [arrive, hhandle]
    rw [hfail]
    exact fail_inStep h hq
  | ok s =>
    obtain ⟨hroom, hother, hone⟩ := handle_mem h.1 hhandle
    have hpending := pending_arrive hq hhandle
    have hdone : w.arrive q env =
        { w with store := s, sent := w.sent.erase q, succeeded := q ::ₘ w.succeeded } := by
      rw [arrive, hhandle]
    rw [hdone] at hpending ⊢
    refine ⟨hone, fun r => ?_⟩
    by_cases hr : r = q.roomId
    · subst hr
      obtain ⟨honly, hpage, _⟩ :=
        (h.2 q.roomId).of_mem (Multiset.mem_add.mpr (Or.inl hq))
      exact Or.inl ⟨pendingFor_of_taken hpending rfl honly, hpage.trans hroom.symm⟩
    · exact (h.2 r).congr (pendingFor_of_ne hpending hr) Iff.rfl (hother r hr)

theorem revert_inStep {q : WishRequest} (h : w.AllInStep) (hq : q ∈ w.failed) :
    (w.revert q).AllInStep := by
  refine ⟨h.1, fun r => ?_⟩
  have hpage := mem_revert (w := w) (q := q) (r := r)
  by_cases hr : r = q.roomId
  · subst hr
    obtain ⟨honly, _, hserver⟩ := (h.2 q.roomId).of_mem (Multiset.mem_add.mpr (Or.inr hq))
    rw [if_pos rfl] at hpage
    exact Or.inl ⟨pendingFor_of_taken (pending_revert hq) rfl honly, hpage.trans hserver.symm⟩
  · rw [if_neg hr] at hpage
    exact (h.2 r).congr (pendingFor_of_ne (pending_revert hq) hr) hpage Iff.rfl

theorem step_inStep (w : WishlistPage) (e : WishEvent) (h : w.AllInStep)
    (hsettled : w.TogglesSettled e) : (w.step e).AllInStep := by
  cases e with
  | toggle roomId => exact toggle_inStep h hsettled.1 hsettled.2
  | render => exact h
  | arrive q env =>
    simp only [step]
    split
    next hq => exact arrive_inStep h hq
    next => exact h
  | lose q =>
    simp only [step]
    split
    next hq => exact fail_inStep h hq
    next => exact h
  | answer q ok =>
    cases ok with
    | true =>
      simp only [step]
      split
      · exact h
      · exact h
    | false =>
      simp only [step]
      split
      next hq => exact revert_inStep h hq
      next => exact h

theorem AllInStep.converged (h : w.AllInStep) : w.Converged := by
  intro hquiet
  have hnone : ∀ r, w.pendingFor r = 0 := by
    intro r
    rw [pendingFor, pending, hquiet.1, hquiet.2.1]
    rfl
  ext r
  rcases h.2 r with ⟨_, hsame⟩ | ⟨q, hone, _⟩
  · exact hsame
  · rw [hnone r] at hone
    exact absurd hone.symm (Multiset.singleton_ne_zero q)

theorem load_inStep {s : Store} {userId : ℤ} {w : WishlistPage} (hone : OnePerRoom s)
    (h : load s userId = .ok w) : w.AllInStep := by
  simp only [load, listSavedRooms, bind_eq_ok, pure_eq_ok] at h
  obtain ⟨items, ⟨user, huser, rfl⟩, rfl⟩ := h
  rw [id_of_getCurrentUser huser]
  exact ⟨hone, fun r => Or.inl ⟨rfl, Iff.rfl⟩⟩

end WishlistPage

/-! ### Toggles outside the condition -/

namespace WishlistPage

def Answers (es : List WishEvent) : Prop := ∀ e ∈ es, ∀ r, e ≠ .toggle r

/-- No request stands in between, and page and server disagree on the room. -/
def Apart (w : WishlistPage) (roomId : ℤ) : Prop :=
  w.pendingFor roomId = 0 ∧
    ¬(roomId ∈ w.savedIds ↔ roomId ∈ savedRoomIds w.store w.userId)

def inFlight (w : WishlistPage) : ℕ :=
  2 * w.sent.card + w.failed.card + w.succeeded.card

variable {w : WishlistPage}

theorem apart_drain_step {r : ℤ} (h : w.Apart r) (hbusy : ¬w.Quiet) :
    ∃ e, (∀ k, e ≠ .toggle k) ∧ (w.step e).inFlight < w.inFlight ∧ (w.step e).Apart r := by
  by_cases hsent : w.sent = 0
  · by_cases hfailed : w.failed = 0
    · have hsucceeded : w.succeeded ≠ 0 := fun hz => hbusy ⟨hsent, hfailed, hz⟩
      obtain ⟨q, hq⟩ := Multiset.exists_mem_of_ne_zero hsucceeded
      refine ⟨.answer q true, fun _ => by simp, ?_, ?_⟩
      · have hcard := Multiset.card_erase_lt_of_mem hq
        simp only [step, if_pos hq, inFlight]
        omega
      · simp only [step, if_pos hq]
        exact h
    · obtain ⟨q, hq⟩ := Multiset.exists_mem_of_ne_zero hfailed
      have hne : r ≠ q.roomId :=
        (roomId_ne_of_none h.1 (Multiset.mem_add.mpr (Or.inr hq))).symm
      refine ⟨.answer q false, fun _ => by simp, ?_, ?_, ?_⟩
      · have hcard := Multiset.card_erase_lt_of_mem hq
        simp only [step, if_pos hq, revert, inFlight]
        omega
      · simp only [step, if_pos hq]
        exact (pendingFor_of_ne (pending_revert hq) hne).trans h.1
      · simp only [step, if_pos hq]
        rw [mem_revert, if_neg hne]
        exact h.2
  · obtain ⟨q, hq⟩ := Multiset.exists_mem_of_ne_zero hsent
    refine ⟨.lose q, fun _ => by simp, ?_, ?_, ?_⟩
    · have hcard := Multiset.card_erase_add_one hq
      simp only [step, if_pos hq, fail, inFlight, Multiset.card_cons]
      omega
    · simp only [step, if_pos hq, pendingFor, pending_fail hq]
      exact h.1
    · simp only [step, if_pos hq]
      exact h.2

/-- Whatever else is in flight, the room stays apart to the end. -/
theorem apart_diverges {r : ℤ} (h : w.Apart r) :
    ∃ es, Answers es ∧ ¬(run step w es).Converged := by
  induction hn : w.inFlight using Nat.strong_induction_on generalizing w with
  | _ n ih =>
    by_cases hquiet : w.Quiet
    · refine ⟨[], fun _ he => (List.not_mem_nil he).elim, fun hconverged => h.2 ?_⟩
      rw [run_nil] at hconverged
      rw [hconverged hquiet]
    · obtain ⟨e, he, hless, hapart⟩ := apart_drain_step h hquiet
      obtain ⟨es, hes, hend⟩ := ih _ (hn ▸ hless) hapart rfl
      refine ⟨e :: es, fun x hx => ?_, hend⟩
      rcases List.mem_cons.mp hx with rfl | hx
      · exact he
      · exact hes x hx

theorem fail_out {q : WishRequest} (hq : q ∈ w.pending) :
    w.pending = q ::ₘ (run step w [.lose q, .answer q false]).pending ∧
      (run step w [.lose q, .answer q false]).store = w.store ∧
      (run step w [.lose q, .answer q false]).userId = w.userId ∧
      ∀ r, r ∈ (run step w [.lose q, .answer q false]).savedIds ↔
        if r = q.roomId then q.wasSaved = true else r ∈ w.savedIds := by
  by_cases hsent : q ∈ w.sent
  · have hfailed : q ∈ (w.fail q).failed := Multiset.mem_cons_self q w.failed
    simp only [run_cons, run_nil, step, if_pos hsent, if_pos hfailed]
    refine ⟨?_, rfl, rfl, fun r => mem_revert⟩
    rw [← pending_revert hfailed, pending_fail hsent]
  · have hfailed : q ∈ w.failed := (Multiset.mem_add.mp hq).resolve_left hsent
    simp only [run_cons, run_nil, step, if_neg hsent, if_pos hfailed]
    exact ⟨pending_revert hfailed, rfl, rfl, fun r => mem_revert⟩

theorem Answers.append {es es' : List WishEvent} (h : Answers es) (h' : Answers es') :
    Answers (es ++ es') := by
  intro e he
  rcases List.mem_append.mp he with he | he
  · exact h e he
  · exact h' e he

theorem answers_fail_out (q : WishRequest) : Answers [.lose q, .answer q false] := by
  intro e he
  simp only [List.mem_cons, List.not_mem_nil, or_false] at he
  rcases he with rfl | rfl <;> simp

theorem fail_out_pendingFor {r : ℤ} {q : WishRequest} {rest : Multiset WishRequest}
    (h : w.pendingFor r = q ::ₘ rest) :
    (run step w [.lose q, .answer q false]).pendingFor r = rest := by
  obtain ⟨hq, hr⟩ := mem_pendingFor.mp (h ▸ Multiset.mem_cons_self q rest : q ∈ w.pendingFor r)
  exact pendingFor_of_taken (fail_out hq).1 hr h

/-- The request that a toggle of the room makes now. -/
def asked (w : WishlistPage) (roomId : ℤ) : WishRequest := ⟨roomId, decide (roomId ∈ w.rendered)⟩

theorem asked_wasSaved {roomId : ℤ} :
    (w.asked roomId).wasSaved = true ↔ roomId ∈ w.rendered := decide_eq_true_iff

theorem pendingFor_toggle (roomId : ℤ) :
    (w.toggle roomId).pendingFor roomId = w.asked roomId ::ₘ w.pendingFor roomId := by
  rw [pendingFor_cons (w.pending_toggle roomId) roomId, if_pos rfl, asked]

section

variable {roomId : ℤ} {q : WishRequest}

/-- The render is old: the request fails, and the page goes back to it. -/
theorem stale_toggle_apart (hnone : w.pendingFor roomId = 0)
    (hsame : roomId ∈ w.savedIds ↔ roomId ∈ savedRoomIds w.store w.userId)
    (hrender : ¬(roomId ∈ w.rendered ↔ roomId ∈ w.savedIds)) :
    ∃ es, Answers es ∧ (run step (w.toggle roomId) es).Apart roomId := by
  have hfor := w.pendingFor_toggle roomId
  rw [hnone] at hfor
  obtain ⟨_, hstore, hid, hsaved⟩ := fail_out (mem_of_only hfor).1
  refine ⟨_, answers_fail_out (w.asked roomId), fail_out_pendingFor hfor, ?_⟩
  rw [hstore, hid, hsaved, asked, if_pos rfl]
  show ¬((w.asked roomId).wasSaved = true ↔ roomId ∈ savedRoomIds w.store w.userId)
  rw [asked_wasSaved, ← hsame]
  exact hrender

/-- Both requests fail, and the older one is taken back first. -/
theorem second_toggle_apart (hone : w.pendingFor roomId = {q})
    (hpage : roomId ∈ w.savedIds ↔ q.wasSaved = false)
    (hserver : roomId ∈ savedRoomIds w.store w.userId ↔ q.wasSaved = true)
    (hrender : roomId ∈ w.rendered ↔ roomId ∈ w.savedIds) :
    ∃ es, Answers es ∧ (run step (w.toggle roomId) es).Apart roomId := by
  have hfor : (w.toggle roomId).pendingFor roomId = q ::ₘ {w.asked roomId} := by
    rw [pendingFor_toggle, hone]
    exact Multiset.cons_swap _ q 0
  have hinq : q ∈ (w.toggle roomId).pending :=
    (mem_pendingFor.mp (hfor ▸ Multiset.mem_cons_self q _)).1
  set w₂ := run step (w.toggle roomId) [.lose q, .answer q false] with hw₂
  have hfor₂ : w₂.pendingFor roomId = {w.asked roomId} := fail_out_pendingFor hfor
  obtain ⟨_, hstore, hid, _⟩ := fail_out hinq
  obtain ⟨_, hstore₂, hid₂, hsaved₂⟩ := fail_out (mem_of_only hfor₂).1
  refine ⟨_, (answers_fail_out q).append (answers_fail_out (w.asked roomId)), ?_⟩
  rw [run_append, ← hw₂]
  refine ⟨fail_out_pendingFor hfor₂, ?_⟩
  rw [hstore₂, hid₂, hw₂, hstore, hid, ← hw₂, hsaved₂, if_pos (mem_of_only hfor₂).2.symm,
    asked_wasSaved, hrender, hpage]
  show ¬(q.wasSaved = false ↔ roomId ∈ savedRoomIds w.store w.userId)
  rw [hserver]
  cases q.wasSaved <;> simp

/-- Both requests ask for the same: one takes effect, the other is taken back. -/
theorem same_toggle_apart {user : User} (hrows : OnePerRoom w.store)
    (huser : getCurrentUser w.store (some w.userId) = .ok user)
    (hroom : (w.store.rooms.get roomId).isSome) (hone : w.pendingFor roomId = {q})
    (hserver : roomId ∈ savedRoomIds w.store w.userId ↔ q.wasSaved = true)
    (hsaved : roomId ∈ w.rendered ↔ q.wasSaved = true) :
    ∃ es, Answers es ∧ (run step (w.toggle roomId) es).Apart roomId := by
  have hpq : (w.asked roomId).wasSaved = q.wasSaved :=
    Bool.eq_iff_iff.mpr (asked_wasSaved.trans hsaved)
  have hsent : w.asked roomId ∈ (w.toggle roomId).sent := Multiset.mem_cons_self _ w.sent
  obtain ⟨s', hs'⟩ : ∃ s',
      (w.asked roomId).handle ⟨0, "", "", fun _ => none⟩ w.store (some w.userId) = .ok s' :=
    handle_ok huser (fun hp => hserver.mpr (hpq ▸ hp)) fun _ => hroom
  obtain ⟨hmem, _⟩ := handle_mem hrows hs'
  set w₂ := (w.toggle roomId).arrive (w.asked roomId) ⟨0, "", "", fun _ => none⟩ with hw₂
  have hfor₂ : w₂.pendingFor roomId = {q} := by
    rw [← hone]
    exact pendingFor_of_taken (pending_arrive hsent hs') rfl (w.pendingFor_toggle roomId)
  have hstore₂ : w₂.store = s' ∧ w₂.userId = w.userId := by
    have hhandle : (w.asked roomId).handle ⟨0, "", "", fun _ => none⟩ (w.toggle roomId).store
        (some (w.toggle roomId).userId) = .ok s' := hs'
    rw [hw₂, arrive, hhandle]
    exact ⟨rfl, rfl⟩
  have harrives : Answers [.arrive (w.asked roomId) ⟨0, "", "", fun _ => none⟩] := by
    intro e he
    rw [List.mem_singleton.mp he]
    simp
  have hrun : run step (w.toggle roomId)
      [.arrive (w.asked roomId) ⟨0, "", "", fun _ => none⟩] = w₂ := by
    rw [run_cons, run_nil, step, if_pos hsent]
  obtain ⟨_, hstore₃, hid₃, hsaved₃⟩ := fail_out (mem_of_only hfor₂).1
  refine ⟨_, harrives.append (answers_fail_out q), ?_⟩
  rw [run_append, hrun]
  refine ⟨fail_out_pendingFor hfor₂, ?_⟩
  rw [hstore₃, hid₃, hstore₂.1, hstore₂.2, hsaved₃, if_pos (mem_of_only hfor₂).2.symm]
  have hmem' : roomId ∈ savedRoomIds s' w.userId ↔ q.wasSaved = false := by
    rw [← hpq]
    exact hmem
  rw [hmem']
  cases q.wasSaved <;> simp

end

/-- A toggle outside the condition: the answers can come so that page and server
end apart. -/
theorem toggle_can_diverge {roomId : ℤ} {user : User} (h : w.AllInStep)
    (huser : getCurrentUser w.store (some w.userId) = .ok user)
    (hroom : (w.store.rooms.get roomId).isSome) (hout : ¬w.TogglesSettled (.toggle roomId)) :
    ∃ es, Answers es ∧ ¬(run step (w.toggle roomId) es).Converged := by
  suffices hapart : ∃ es, Answers es ∧ (run step (w.toggle roomId) es).Apart roomId by
    obtain ⟨es, hes, hapart⟩ := hapart
    obtain ⟨es', hes', hend⟩ := apart_diverges hapart
    exact ⟨es ++ es', hes.append hes', by rwa [run_append]⟩
  rcases h.2 roomId with ⟨hnone, hsame⟩ | ⟨q, hone, hpage, hserver⟩
  · refine stale_toggle_apart hnone hsame fun hrender => ?_
    exact hout ⟨hrender, fun q hq => roomId_ne_of_none hnone hq⟩
  · by_cases hrender : roomId ∈ w.rendered ↔ roomId ∈ w.savedIds
    · exact second_toggle_apart hone hpage hserver hrender
    · refine same_toggle_apart h.1 huser hroom hone hserver ?_
      rw [hpage] at hrender
      cases hq : q.wasSaved <;> rw [hq] at hrender <;> simpa using hrender

end WishlistPage

/-! ### Runs -/

/-- From a page that loaded, any run whose toggles are made from an up-to-date
render, with nothing pending for the room, ends every quiet spell with the page
showing what is saved. -/
theorem wishlist_converges (s : Store) (userId : ℤ) (w : WishlistPage) (es : List WishEvent)
    (hone : OnePerRoom s) (hload : WishlistPage.load s userId = .ok w)
    (h : Along WishlistPage.step WishlistPage.TogglesSettled w es) :
    Always WishlistPage.step WishlistPage.Converged w es :=
  (always_of_along WishlistPage.step_inStep (WishlistPage.load_inStep hone hload) h).mono
    fun _ => WishlistPage.AllInStep.converged

def samplePage : WishlistPage := ⟨sampleStore, 1, ∅, ∅, 0, 0, 0⟩

/-- A room is saved, and taken off again after the save went through. -/
def saveThenUnsave : List WishEvent :=
  [.toggle 1, .render, .arrive ⟨1, false⟩ (sampleEnv "txn_1"), .toggle 1,
    .arrive ⟨1, true⟩ (sampleEnv "txn_1"), .answer ⟨1, true⟩ true, .answer ⟨1, false⟩ true]

theorem wishlist_converges_saveThenUnsave :
    Always WishlistPage.step WishlistPage.Converged samplePage saveThenUnsave :=
  wishlist_converges sampleStore 1 samplePage saveThenUnsave (fun _ hw => by cases hw) rfl
    (by decide +kernel)

/-- The save is lost, and before the page knows the room is taken off again. -/
def overlappingToggles : List WishEvent :=
  [.toggle 1, .render, .toggle 1, .lose ⟨1, false⟩, .arrive ⟨1, true⟩ (sampleEnv "txn_1"),
    .answer ⟨1, false⟩ false, .answer ⟨1, true⟩ false]

theorem overlapping_toggles_diverge : WishlistPage.load sampleStore 1 = .ok samplePage ∧
    ¬Always WishlistPage.step WishlistPage.Converged samplePage overlappingToggles := by
  refine ⟨rfl, fun h => ?_⟩
  obtain ⟨_, _, _, _, _, _, _, hlast⟩ := h
  have hquiet : (run WishlistPage.step samplePage overlappingToggles).Quiet := by
    unfold WishlistPage.Quiet
    decide +kernel
  have hapart : (run WishlistPage.step samplePage overlappingToggles).savedIds ≠
      savedRoomIds (run WishlistPage.step samplePage overlappingToggles).store 1 := by
    decide +kernel
  exact hapart (hlast hquiet)

end HotelMs
